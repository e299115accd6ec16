import Mathlib.Data.List.Infix
import Mathlib.Data.List.Induction

/-! # Paths

A path is the list of its components, from the root of the file system. Resolving it
follows the components one by one, where `..` goes back up. -/

namespace Paths

abbrev Path := List String

/-- The place reached from `place` by one more component. -/
def enter (place : Path) (part : String) : Path :=
  if part = ".." then
    place.dropLast
  else if part = "." ∨ part = "" then
    place
  else
    place ++ [part]

def resolve (path : Path) : Path :=
  path.foldl enter []

/-- The path resolves to a place properly below `root`. -/
def Inside (root path : Path) : Prop :=
  resolve root <+: resolve path ∧ resolve path ≠ resolve root

instance (root path : Path) : Decidable (Inside root path) :=
  inferInstanceAs (Decidable (_ ∧ _))

/-- A component that leads somewhere else. -/
structure Leads (part : String) : Prop where
  notHere : part ≠ "."
  notEmpty : part ≠ ""

/-- On the way along `parts` never as much is left as was entered. -/
structure StaysBelow (parts : Path) : Prop where
  entered : ∀ part, part <+: parts → part ≠ [] → 2 * part.count ".." < part.length

theorem enter_up (place : Path) : enter place ".." = place.dropLast := by
  rw [enter, if_pos rfl]

theorem enter_down {place : Path} {part : String} (leads : Leads part) (down : part ≠ "..") :
    enter place part = place ++ [part] := by
  rw [enter, if_neg down, if_neg]
  intro either
  rcases either with here | empty
  · exact leads.notHere here
  · exact leads.notEmpty empty

theorem resolve_concat (path : Path) (part : String) :
    resolve (path ++ [part]) = enter (resolve path) part := by
  rw [resolve, List.foldl_concat, resolve]

theorem StaysBelow.of_prefix {part parts : Path} (stays : StaysBelow parts)
    (isPrefix : part <+: parts) : StaysBelow part :=
  ⟨fun other isOther => stays.entered other (isOther.trans isPrefix)⟩

theorem StaysBelow.concat {parts : Path} {last : String} (stays : StaysBelow parts)
    (entered : 2 * (parts ++ [last]).count ".." < (parts ++ [last]).length) :
    StaysBelow (parts ++ [last]) := by
  constructor
  intro part isPrefix nonempty
  rcases List.prefix_concat_iff.mp isPrefix with rfl | earlier
  · exact entered
  · exact stays.entered part earlier nonempty

/-- The place reached is as deep as what was entered and not left. -/
theorem StaysBelow.resolve (root : Path) : ∀ {parts : Path},
    (∀ part ∈ parts, Leads part) → StaysBelow parts →
    ∃ below : Path, Paths.resolve (root ++ parts) = Paths.resolve root ++ below ∧
      below.length + 2 * parts.count ".." = parts.length := by
  intro parts
  induction parts using List.reverseRecOn with
  | nil =>
      intro _ _
      exact ⟨[], by simp, rfl⟩
  | append_singleton parts last induction =>
      intro leads stays
      have earlier := induction (fun part member => leads part (List.mem_append_left _ member))
        (stays.of_prefix (List.prefix_append parts [last]))
      rcases earlier with ⟨below, reached, depth⟩
      rw [← List.append_assoc, resolve_concat, reached, List.count_append, List.length_append]
      by_cases up : last = ".."
      · have deep := stays.entered _ List.prefix_rfl (List.concat_ne_nil _ _)
        rw [List.count_append, List.length_append] at deep
        rw [up] at deep ⊢
        simp only [List.count_singleton_self, List.length_singleton] at deep ⊢
        have nonempty : below ≠ [] := by
          intro empty
          rw [empty, List.length_nil] at depth
          omega
        apply Exists.intro below.dropLast
        rw [enter_up, List.dropLast_append_of_ne_nil nonempty, List.length_dropLast]
        exact ⟨rfl, by omega⟩
      · apply Exists.intro (below ++ [last])
        rw [enter_down (leads last (List.mem_append_right _ List.mem_cons_self)) up,
          List.append_assoc, List.count_singleton, List.length_append]
        simp only [List.length_singleton, beq_iff_eq, if_neg up]
        exact ⟨trivial, by omega⟩

/-- Every place on the way along `parts` lies inside `root` exactly when the way never
leaves as much as it entered. -/
theorem inside_iff_staysBelow (root : Path) {parts : Path} (leads : ∀ part ∈ parts, Leads part) :
    (∀ part, part <+: parts → part ≠ [] → Inside root (root ++ part)) ↔ StaysBelow parts := by
  constructor
  · induction parts using List.reverseRecOn with
    | nil =>
        intro _
        constructor
        intro part isPrefix nonempty
        exact absurd (List.prefix_nil.mp isPrefix) nonempty
    | append_singleton parts last induction =>
        intro inside
        have leadsBefore : ∀ part ∈ parts, Leads part := fun part member =>
          leads part (List.mem_append_left _ member)
        have stays := induction leadsBefore fun part isPrefix =>
          inside part (isPrefix.trans (List.prefix_append parts [last]))
        apply stays.concat
        rcases StaysBelow.resolve root leadsBefore stays with ⟨below, reached, depth⟩
        rcases inside _ List.prefix_rfl (List.concat_ne_nil _ _) with ⟨isPrefix, different⟩
        rw [← List.append_assoc, resolve_concat, reached] at isPrefix different
        rw [List.count_append, List.length_append, List.count_singleton]
        by_cases up : last = ".."
        · rw [up, enter_up] at isPrefix different
          simp only [up, beq_self_eq_true, if_true, List.length_singleton]
          -- Going up from one component below the root, or from the root, is not inside.
          have longer : resolve root ≠ (resolve root ++ below).dropLast := fun same =>
            different same.symm
          have bound := isPrefix.length_le
          have lengths : (resolve root).length ≠ (resolve root ++ below).dropLast.length :=
            fun same => longer (isPrefix.eq_of_length same)
          rw [List.length_dropLast, List.length_append] at bound lengths
          omega
        · simp only [beq_iff_eq, if_neg up, List.length_singleton]
          omega
  · intro stays part isPrefix nonempty
    have deep := stays.entered part isPrefix nonempty
    have leadsHere : ∀ name ∈ part, Leads name := fun name member =>
      leads name (isPrefix.subset member)
    rcases StaysBelow.resolve root leadsHere (stays.of_prefix isPrefix) with
      ⟨below, reached, depth⟩
    rw [Inside, reached]
    apply And.intro (List.prefix_append _ _)
    intro same
    rw [List.append_right_eq_self.mp same, List.length_nil] at depth
    omega

end Paths
