import Mathlib.Data.List.Basic

/-! # Content in blocks

A list cut into blocks of one size, of which the last may be shorter. -/

namespace Blocks

variable {α : Type u}

/-- The elements from `index * size` on, at most `size` of them. -/
def block (size : Nat) (content : List α) (index : Nat) : List α :=
  (content.drop (index * size)).take size

/-- The number of blocks that cover `length` elements. -/
def count (size length : Nat) : Nat :=
  (length + size - 1) / size

theorem length_block (size : Nat) (content : List α) (index : Nat) :
    (block size content index).length = min size (content.length - index * size) := by
  rw [block, List.length_take, List.length_drop]

/-- The first blocks in their order are the beginning of the content. -/
theorem flatMap_block (size : Nat) (content : List α) : ∀ number,
    (List.range number).flatMap (block size content) = content.take (number * size)
  | 0 => by simp
  | number + 1 => by
      rw [List.range_succ, List.flatMap_append, flatMap_block size content number,
        List.flatMap_singleton, block, Nat.succ_mul, List.take_add]

theorem le_count_mul {size : Nat} (positive : 0 < size) (length : Nat) :
    length ≤ count size length * size := by
  have split := Nat.div_add_mod (length + size - 1) size
  have short := Nat.mod_lt (length + size - 1) positive
  rw [count, Nat.mul_comm]
  omega

/-- A block is one of the count exactly when it starts within the content. -/
theorem lt_count_iff {size : Nat} (positive : 0 < size) (length index : Nat) :
    index < count size length ↔ index * size < length := by
  rw [count, Nat.lt_iff_add_one_le, Nat.le_div_iff_mul_le positive, Nat.add_mul, Nat.one_mul]
  omega

/-- The blocks in their order are the content. -/
theorem flatMap_blocks {size : Nat} (positive : 0 < size) (content : List α) :
    (List.range (count size content.length)).flatMap (block size content) = content := by
  rw [flatMap_block]
  exact List.take_of_length_le (le_count_mul positive content.length)

/-! ## Reading block by block -/

/-- The loop that reads a block, stops when it is empty and works on it otherwise. -/
def foldBlocks {β : Type v} (size : Nat) (work : β → List α → β) (source : List α) (state : β) :
    β :=
  if source.take size = [] then state
  else foldBlocks size work (source.drop size) (work state (source.take size))
termination_by source.length
decreasing_by
  rename_i more
  have both := mt List.take_eq_nil_iff.mpr more
  rw [not_or] at both
  have positive := List.length_pos_of_ne_nil both.2
  rw [List.length_drop]
  omega

/-- What holds of the part read so far and is kept by each block holds of the whole. -/
theorem foldBlocks_keeps {β : Type v} {size : Nat} (positive : 0 < size) (work : β → List α → β)
    (Keep : List α → β → Prop)
    (each : ∀ read state part, Keep read state → Keep (read ++ part) (work state part))
    (source : List α) (state : β) :
    ∀ read, Keep read state → Keep (read ++ source) (foldBlocks size work source state) := by
  fun_induction foldBlocks size work source state with
  | case1 source state done =>
      intro read keep
      rcases List.take_eq_nil_iff.mp done with none | empty
      · exact absurd none (Nat.pos_iff_ne_zero.mp positive)
      · rwa [empty, List.append_nil]
  | case2 source state more induction =>
      intro read keep
      have rest := induction (read ++ source.take size) (each read state _ keep)
      rwa [List.append_assoc, List.take_append_drop] at rest

end Blocks
