import Mathlib.Logic.Relation

/-! # Worklist traversals

A traversal takes the top node off its stack, visits it unless it has been visited, and
pushes the nodes next to it. What it has visited when the stack is empty is what the roots
reach. -/

namespace Traversal

open Relation

variable {α : Type u} {next : α → α → Prop} {roots : α → Prop}

/-- Some root leads to the node. -/
def Reached (next : α → α → Prop) (roots : α → Prop) (node : α) : Prop :=
  ∃ root, roots root ∧ ReflTransGen next root node

/-- Every node seen so far is reached, every root has been seen, and the nodes next to a
visited one have been seen. -/
structure Frontier (next : α → α → Prop) (roots : α → Prop) (visited stack : List α) : Prop where
  reached : ∀ node, node ∈ visited ∨ node ∈ stack → Reached next roots node
  rooted : ∀ root, roots root → root ∈ visited ∨ root ∈ stack
  due : ∀ node ∈ visited, ∀ other, next node other → other ∈ visited ∨ other ∈ stack

variable {visited stack : List α} {node : α}

/-- Nothing is visited and the stack holds the roots. -/
theorem Frontier.initial (holdsRoots : ∀ root, root ∈ stack ↔ roots root) :
    Frontier next roots [] stack where
  reached := by
    rintro root (visits | onStack)
    · cases visits
    · exact ⟨root, (holdsRoots root).mp onStack, .refl⟩
  rooted := fun root isRoot => .inr ((holdsRoots root).mpr isRoot)
  due := by
    intro root visits
    cases visits

/-- A node that has been visited before is dropped. -/
theorem Frontier.skip (frontier : Frontier next roots visited (node :: stack))
    (done : node ∈ visited) : Frontier next roots visited stack := by
  have stays : ∀ other, other ∈ visited ∨ other ∈ node :: stack →
      other ∈ visited ∨ other ∈ stack := by
    rintro other (visits | onStack)
    · exact .inl visits
    · rcases List.mem_cons.mp onStack with rfl | below
      · exact .inl done
      · exact .inr below
  refine ⟨?_, ?_, ?_⟩
  · exact fun other seen => frontier.reached other (seen.imp_right (List.mem_cons_of_mem node))
  · exact fun root isRoot => stays root (frontier.rooted root isRoot)
  · exact fun parent visits other leads => stays other (frontier.due parent visits other leads)

/-- A new node is visited and the nodes next to it are pushed. -/
theorem Frontier.visit {pushed : List α} (frontier : Frontier next roots visited (node :: stack))
    (pushes : ∀ other, other ∈ pushed ↔ next node other) :
    Frontier next roots (visited ++ [node]) (pushed ++ stack) := by
  have stays : ∀ other, other ∈ visited ∨ other ∈ node :: stack →
      other ∈ visited ++ [node] ∨ other ∈ pushed ++ stack := by
    rintro other (visits | onStack)
    · exact .inl (List.mem_append_left [node] visits)
    · rcases List.mem_cons.mp onStack with rfl | below
      · exact .inl (List.mem_append_right visited List.mem_cons_self)
      · exact .inr (List.mem_append_right pushed below)
  have top : Reached next roots node := frontier.reached node (.inr List.mem_cons_self)
  refine ⟨?_, ?_, ?_⟩
  · rintro other (visits | onStack)
    · rcases List.mem_append.mp visits with earlier | isNew
      · exact frontier.reached other (.inl earlier)
      · rw [List.mem_singleton.mp isNew]
        exact top
    · rcases List.mem_append.mp onStack with isPushed | below
      · rcases top with ⟨root, isRoot, leads⟩
        exact ⟨root, isRoot, leads.tail ((pushes other).mp isPushed)⟩
      · exact frontier.reached other (.inr (List.mem_cons_of_mem node below))
  · exact fun root isRoot => stays root (frontier.rooted root isRoot)
  · intro parent visits other leads
    rcases List.mem_append.mp visits with earlier | isNew
    · exact stays other (frontier.due parent earlier other leads)
    · rw [List.mem_singleton.mp isNew] at leads
      exact .inr (List.mem_append_left stack ((pushes other).mpr leads))

/-- With an empty stack the visited nodes are those that the roots reach. -/
theorem Frontier.finished (frontier : Frontier next roots visited []) :
    node ∈ visited ↔ Reached next roots node := by
  have seen : ∀ other, other ∈ visited ∨ other ∈ [] → other ∈ visited := by
    rintro other (visits | onStack)
    · exact visits
    · cases onStack
  constructor
  · exact fun visits => frontier.reached node (.inl visits)
  · rintro ⟨root, isRoot, leads⟩
    induction leads with
    | refl => exact seen root (frontier.rooted root isRoot)
    | tail _ step induction => exact seen _ (frontier.due _ induction _ step)

end Traversal
