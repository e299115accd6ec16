import CloudDrive.Foundation.Table
import CloudDrive.Foundation.Forest

/-! # Tables with a parent column

Rows that name their parent row draw a parent graph over the keys. Walks over
such a table are bounded by its number of rows when the graph is a forest. -/

namespace Relational.Table

open Forest

variable {ρ : Type u} {κ : Type v} [Keyed ρ κ] [DecidableEq κ]

/-- The parent graph of a table whose parent column is `up`. -/
def parentBy (table : Table ρ) (up : ρ → Option κ) (key : κ) : Option κ :=
  (table.find? key).bind up

variable {table : Table ρ} {up : ρ → Option κ}

theorem parentBy_key {row : ρ} (member : row ∈ table) :
    table.parentBy up (Keyed.key row) = up row := by
  simp [parentBy, find?_key member]

theorem parentBy_eq_some {key top : κ} :
    table.parentBy up key = some top ↔
      ∃ row ∈ table, Keyed.key row = key ∧ up row = some top := by
  rw [parentBy, Option.bind_eq_some_iff]
  constructor
  · rintro ⟨row, found, step⟩
    rcases find?_eq_some.mp found with ⟨member, sameKey⟩
    exact ⟨row, member, sameKey, step⟩
  · rintro ⟨row, member, rfl, step⟩
    exact ⟨row, find?_key member, step⟩

theorem parentBy_acyclic (rank : κ → Nat)
    (lower : ∀ row ∈ table.rows, ∀ top ∈ up row, rank top < rank (Keyed.key row)) :
    Acyclic (table.parentBy up) := by
  refine Acyclic.of_rank rank ?_
  intro key top step
  rcases parentBy_eq_some.mp step with ⟨row, member, rfl, points⟩
  exact lower row member top points

theorem parentBy_supported :
    Supported (table.parentBy up) (table.rows.map Keyed.key) := by
  intro key top step
  rcases parentBy_eq_some.mp step with ⟨row, member, rfl, _⟩
  exact List.mem_map_of_mem member

/-- A chain in a forest table has at most as many steps as the table has rows. -/
theorem chain_ends (acyclic : Acyclic (table.parentBy up)) (key : κ) :
    ancestor (table.parentBy up) (table.rows.length + 1) key = none := by
  have ends := acyclic.ancestor_eq_none parentBy_supported key
  simpa using ends

/-! ## Breadth-first descent -/

variable (table up)

def childrenOf (queue : List κ) : List ρ :=
  table.rows.filter fun row =>
    match up row with
    | some top => decide (top ∈ queue)
    | none => false

/-- Level by level below `queue`; `none` when `fuel` levels were not enough. -/
def breadthFirst : Nat → List κ → List ρ → Option (List ρ)
  | _, [], result => some result
  | 0, _ :: _, _ => none
  | fuel + 1, queue@(_ :: _), result =>
      let children := table.childrenOf up queue
      breadthFirst fuel (children.map Keyed.key) (result ++ children)

variable {table up}

theorem mem_childrenOf {queue : List κ} {row : ρ} :
    row ∈ table.childrenOf up queue ↔
      row ∈ table ∧ ∃ top ∈ queue, up row = some top := by
  rw [childrenOf, List.mem_filter]
  cases up row <;> simp

/-- What the loop finds are rows of the table below the queue. -/
theorem mem_of_breadthFirst : ∀ {fuel : Nat} {queue : List κ} {result final : List ρ},
    table.breadthFirst up fuel queue result = some final →
    ∀ row ∈ final, row ∈ result ∨
      (row ∈ table ∧ ∃ top ∈ queue, Above (table.parentBy up) (Keyed.key row) top)
  | 0, [], _, _, runs, row, member => by
      cases runs
      exact .inl member
  | _ + 1, [], _, _, runs, row, member => by
      cases runs
      exact .inl member
  | fuel + 1, top :: rest, result, final, runs, row, member => by
      rw [breadthFirst] at runs
      rcases mem_of_breadthFirst runs row member with among | ⟨inTable, middle, isChild, path⟩
      · rcases List.mem_append.mp among with earlier | child
        · exact .inl earlier
        · rcases mem_childrenOf.mp child with ⟨inTable, parent, inQueue, step⟩
          exact .inr ⟨inTable, parent, inQueue, .single ((parentBy_key inTable).trans step)⟩
      · rcases List.mem_map.mp isChild with ⟨child, childMem, rfl⟩
        rcases mem_childrenOf.mp childMem with ⟨childIn, parent, inQueue, step⟩
        exact .inr ⟨inTable, parent, inQueue, path.tail ((parentBy_key childIn).trans step)⟩

/-- What the loop knows after `depth` levels below `root`. -/
private structure Explored (table : Table ρ) (up : ρ → Option κ) (root : κ)
    (depth : Nat) (queue : List κ) (result : List ρ) : Prop where
  frontier : ∀ key, ancestor (table.parentBy up) depth key = some root → key ∈ queue
  atDepth : ∀ key ∈ queue, ancestor (table.parentBy up) depth key = some root
  sound : ∀ row ∈ result, row ∈ table ∧ ∃ steps < depth,
    ancestor (table.parentBy up) (steps + 1) (Keyed.key row) = some root
  complete : ∀ row ∈ table, ∀ steps < depth,
    ancestor (table.parentBy up) (steps + 1) (Keyed.key row) = some root → row ∈ result
  nodup : result.Nodup
  parentsFirst : result.Pairwise fun earlier later => up earlier ≠ some (Keyed.key later)

private theorem Explored.initial (root : κ) :
    Explored table up root 0 [root] [] where
  frontier key reached := by
    simpa [ancestor] using reached
  atDepth key member := by
    rw [List.mem_singleton.mp member]
    rfl
  sound row member := by cases member
  complete row _ steps short := by omega
  nodup := .nil
  parentsFirst := .nil

private theorem Explored.descend {root : κ} {depth : Nat} {queue : List κ}
    {result : List ρ} (acyclic : Acyclic (table.parentBy up))
    (explored : Explored table up root depth queue result) :
    Explored table up root (depth + 1)
      ((table.childrenOf up queue).map Keyed.key)
      (result ++ table.childrenOf up queue) := by
  have childDepth : ∀ row ∈ table.childrenOf up queue,
      ancestor (table.parentBy up) (depth + 1) (Keyed.key row) = some root := by
    intro row member
    rcases mem_childrenOf.mp member with ⟨rowMem, top, topMem, step⟩
    rw [ancestor, parentBy_key rowMem, step]
    exact explored.atDepth top topMem
  have isChild : ∀ row ∈ table,
      ancestor (table.parentBy up) (depth + 1) (Keyed.key row) = some root →
      row ∈ table.childrenOf up queue := by
    intro row rowMem reached
    rw [ancestor, parentBy_key rowMem] at reached
    rcases Option.bind_eq_some_iff.mp reached with ⟨top, step, rest⟩
    exact mem_childrenOf.mpr ⟨rowMem, top, explored.frontier top rest, step⟩
  constructor
  case frontier =>
    intro key reached
    have stepAway := reached
    rw [ancestor] at stepAway
    rcases Option.bind_eq_some_iff.mp stepAway with ⟨top, step, _⟩
    rcases parentBy_eq_some.mp step with ⟨row, rowMem, rfl, _⟩
    exact List.mem_map_of_mem (isChild row rowMem reached)
  case atDepth =>
    intro key member
    rcases List.mem_map.mp member with ⟨row, rowMem, rfl⟩
    exact childDepth row rowMem
  case sound =>
    intro row member
    rcases List.mem_append.mp member with earlier | child
    · rcases explored.sound row earlier with ⟨rowMem, steps, short, reached⟩
      exact ⟨rowMem, steps, by omega, reached⟩
    · exact ⟨(mem_childrenOf.mp child).1, depth, by omega, childDepth row child⟩
  case complete =>
    intro row rowMem steps short reached
    rcases Nat.lt_succ_iff_lt_or_eq.mp short with shorter | rfl
    · exact List.mem_append_left _ (explored.complete row rowMem steps shorter reached)
    · exact List.mem_append_right _ (isChild row rowMem reached)
  case nodup =>
    refine List.nodup_append.mpr ⟨explored.nodup, ?_, ?_⟩
    · exact (List.Nodup.of_map _ table.nodup).filter _
    · rintro row earlier _ child rfl
      rcases explored.sound row earlier with ⟨_, steps, short, reached⟩
      have same := acyclic.ancestor_injective reached (childDepth row child)
      omega
  case parentsFirst =>
    refine List.pairwise_append.mpr ⟨explored.parentsFirst, ?_, ?_⟩
    · refine List.pairwise_of_forall_mem_list ?_
      intro row rowMem other otherMem step
      have rowDepth := childDepth row rowMem
      rw [ancestor, parentBy_key (mem_childrenOf.mp rowMem).1, step] at rowDepth
      have same := acyclic.ancestor_injective rowDepth (childDepth other otherMem)
      omega
    · intro row earlier other child step
      rcases explored.sound row earlier with ⟨rowMem, steps, short, reached⟩
      rw [ancestor, parentBy_key rowMem, step] at reached
      have same := acyclic.ancestor_injective reached (childDepth other child)
      omega

private theorem Explored.run {root : κ} (acyclic : Acyclic (table.parentBy up)) :
    ∀ (fuel depth : Nat) (queue : List κ) (result : List ρ),
      fuel + depth = table.rows.length + 1 →
      Explored table up root depth queue result →
      ∃ final last, table.breadthFirst up fuel queue result = some final ∧
        Explored table up root last [] final := by
  intro fuel
  induction fuel with
  | zero =>
      intro depth queue result total explored
      cases queue with
      | nil => exact ⟨result, depth, rfl, explored⟩
      | cons key rest =>
          have reached := explored.atDepth key (by simp)
          have ends := chain_ends acyclic key
          rw [show depth = table.rows.length + 1 by omega, ends] at reached
          cases reached
  | succ fuel induction =>
      intro depth queue result total explored
      cases queue with
      | nil => exact ⟨result, depth, rfl, explored⟩
      | cons key rest =>
          exact induction (depth + 1) _ _ (by omega) (explored.descend acyclic)

/-- In a forest the descent ends and lists exactly the rows below `root`, once
each, and never a row before its parent. -/
theorem breadthFirst_spec (acyclic : Acyclic (table.parentBy up)) (root : κ) :
    ∃ final, table.breadthFirst up (table.rows.length + 1) [root] [] = some final ∧
      (∀ row, row ∈ final ↔
        row ∈ table ∧ Above (table.parentBy up) (Keyed.key row) root) ∧
      final.Nodup ∧
      final.Pairwise fun earlier later => up earlier ≠ some (Keyed.key later) := by
  obtain ⟨final, last, runs, explored⟩ :=
    Explored.run acyclic (table.rows.length + 1) 0 [root] [] (by omega)
      (Explored.initial root)
  refine ⟨final, runs, ?_, explored.nodup, explored.parentsFirst⟩
  intro row
  rw [above_iff_ancestor]
  constructor
  · intro member
    rcases explored.sound row member with ⟨rowMem, steps, _, reached⟩
    exact ⟨rowMem, steps, reached⟩
  · rintro ⟨rowMem, steps, reached⟩
    by_cases short : steps < last
    · exact explored.complete row rowMem steps short reached
    · -- The chain passes a key `last` steps below `root`, but that level is empty.
      have passes := reached
      rw [show steps + 1 = (steps + 1 - last) + last by omega, ancestor_add] at passes
      rcases Option.bind_eq_some_iff.mp passes with ⟨key, _, keyAt⟩
      cases explored.frontier key keyAt

end Relational.Table
