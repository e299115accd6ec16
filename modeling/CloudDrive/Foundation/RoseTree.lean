import Mathlib.Data.List.Basic
import Mathlib.Data.List.Perm.Basic

/-! # Trees of any width

A node has a label and its children in their order. A walk with a queue takes the node in
front and puts its children behind, so it comes to every node once. -/

namespace RoseTree

inductive Tree (α : Type u) where
  | node (label : α) (children : List (Tree α))

variable {α : Type u}

namespace Tree

def label : Tree α → α
  | .node label _ => label

def children : Tree α → List (Tree α)
  | .node _ children => children

mutual

/-- The nodes of a tree, each with what is below it. -/
def nodes : Tree α → List (Tree α)
  | .node label children => .node label children :: nodesAll children

def nodesAll : List (Tree α) → List (Tree α)
  | [] => []
  | tree :: rest => nodes tree ++ nodesAll rest

end

/-- The node is the tree itself or lies below one of its children. -/
inductive Within : Tree α → Tree α → Prop where
  | self {tree : Tree α} : Within tree tree
  | inChild {node child tree : Tree α} : child ∈ tree.children → Within node child →
      Within node tree

theorem nodes_eq (tree : Tree α) : tree.nodes = tree :: nodesAll tree.children := by
  cases tree with
  | node label children => rw [nodes, Tree.children]

theorem nodesAll_append (first second : List (Tree α)) :
    nodesAll (first ++ second) = nodesAll first ++ nodesAll second := by
  induction first with
  | nil => rfl
  | cons tree rest induction =>
      rw [List.cons_append, nodesAll, nodesAll, induction, List.append_assoc]

theorem nodesAll_singleton (tree : Tree α) : nodesAll [tree] = tree.nodes := by
  rw [nodesAll, nodesAll, List.append_nil]

theorem mem_nodesAll {node : Tree α} {trees : List (Tree α)} :
    node ∈ nodesAll trees ↔ ∃ tree ∈ trees, node ∈ tree.nodes := by
  induction trees with
  | nil => simp [nodesAll]
  | cons tree rest induction => simp [nodesAll, induction]

mutual

theorem within_of_mem_nodes {node : Tree α} : ∀ {tree : Tree α}, node ∈ tree.nodes →
    Within node tree
  | .node label children, member => by
      rw [nodes] at member
      rcases List.mem_cons.mp member with rfl | inChildren
      · exact .self
      · rcases within_of_mem_nodesAll inChildren with ⟨child, isChild, within⟩
        exact .inChild isChild within

theorem within_of_mem_nodesAll {node : Tree α} : ∀ {trees : List (Tree α)},
    node ∈ nodesAll trees → ∃ tree ∈ trees, Within node tree
  | [], member => by
      rw [nodesAll] at member
      cases member
  | tree :: rest, member => by
      rw [nodesAll] at member
      rcases List.mem_append.mp member with inTree | inRest
      · exact ⟨tree, List.mem_cons_self, within_of_mem_nodes inTree⟩
      · rcases within_of_mem_nodesAll inRest with ⟨other, isOther, within⟩
        exact ⟨other, List.mem_cons_of_mem _ isOther, within⟩

end

theorem mem_nodes {node tree : Tree α} : node ∈ tree.nodes ↔ Within node tree := by
  apply Iff.intro within_of_mem_nodes
  intro within
  induction within with
  | self =>
      rw [nodes_eq]
      exact List.mem_cons_self
  | inChild isChild _ induction =>
      rw [nodes_eq]
      exact List.mem_cons_of_mem _ (mem_nodesAll.mpr ⟨_, isChild, induction⟩)

/-! ## The walk with a queue -/

/-- The nodes in the order in which they leave the queue. -/
def drain : Nat → List (Tree α) → List (Tree α)
  | 0, _ => []
  | _ + 1, [] => []
  | fuel + 1, tree :: queue => tree :: drain fuel (queue ++ tree.children)

/-- A queue is drained after as many rounds as it has nodes, each node in one of them. -/
theorem drain_perm : ∀ {fuel : Nat} {queue : List (Tree α)},
    (nodesAll queue).length ≤ fuel → (drain fuel queue).Perm (nodesAll queue)
  | 0, queue, enough => by
      rw [drain, List.eq_nil_of_length_eq_zero (Nat.le_zero.mp enough)]
  | _ + 1, [], _ => by rw [drain, nodesAll]
  | fuel + 1, tree :: queue, enough => by
      have split : (nodesAll (queue ++ tree.children)).Perm
          (nodesAll tree.children ++ nodesAll queue) := by
        rw [nodesAll_append]
        exact List.perm_append_comm
      have all : nodesAll (tree :: queue) =
          tree :: (nodesAll tree.children ++ nodesAll queue) := by
        rw [nodesAll, nodes_eq, List.cons_append]
      have less : (nodesAll (queue ++ tree.children)).length ≤ fuel := by
        rw [all, List.length_cons] at enough
        rw [split.length_eq]
        omega
      rw [drain, all]
      exact ((drain_perm less).trans split).cons tree

/-- The walk over a whole tree. -/
def walk (tree : Tree α) : List (Tree α) :=
  drain tree.nodes.length [tree]

theorem walk_perm (tree : Tree α) : tree.walk.Perm tree.nodes := by
  rw [← nodesAll_singleton, walk]
  exact drain_perm (Nat.le_of_eq (congrArg List.length (nodesAll_singleton tree)))

theorem mem_walk {node tree : Tree α} : node ∈ tree.walk ↔ Within node tree :=
  tree.walk_perm.mem_iff.trans mem_nodes

end Tree

end RoseTree
