import CloudDrive.Foundation.Forest

/-! # Browsing level by level

A reader who sees one folder at a time opens the top level first, then every folder of it,
then every folder found there. In a forest in which only folders have children it sees
everything once. -/

namespace Forest

variable {ρ : Type u} {κ : Type v}

/-- Opens the folders of `queue`, all of one level, then those found in them; `none` when
`fuel` levels were not enough. -/
def byLevel (listing : Option κ → List ρ) (isFolder : ρ → Bool) (key : ρ → κ) :
    Nat → List (Option κ) → List ρ → Option (List ρ)
  | _, [], visited => some visited
  | 0, _ :: _, _ => none
  | fuel + 1, queue@(_ :: _), visited =>
      let level := queue.flatMap listing
      byLevel listing isFolder key fuel
        ((level.filter isFolder).map fun entry => some (key entry)) (visited ++ level)

section Levels

variable {listing : Option κ → List ρ} {isFolder : ρ → Bool} {key : ρ → κ}
  {parent : κ → Option κ} {entries : List ρ}

/-- The listing of a folder has the entries whose parent it is, each once, and every
parent is a folder among the entries. -/
structure Listed (listing : Option κ → List ρ) (isFolder : ρ → Bool) (key : ρ → κ)
    (parent : κ → Option κ) (entries : List ρ) : Prop where
  distinct : (entries.map key).Nodup
  listed : ∀ place entry, entry ∈ listing place ↔ entry ∈ entries ∧ parent (key entry) = place
  once : ∀ place, (listing place).Nodup
  folders : ∀ entry ∈ entries, ∀ top, parent (key entry) = some top →
    ∃ folder ∈ entries, key folder = top ∧ isFolder folder = true

/-- What is known after `depth` levels: their entries are visited, and the folders of the
last of them come next. -/
structure Browsed (isFolder : ρ → Bool) (key : ρ → κ) (parent : κ → Option κ)
    (entries : List ρ) (depth : Nat) (queue : List (Option κ)) (visited : List ρ) : Prop where
  next : ∀ place, place ∈ queue ↔
    (depth = 0 ∧ place = none) ∨ ∃ folder ∈ entries, isFolder folder = true ∧
      place = some (key folder) ∧ ∃ level, depth = level + 1 ∧ DepthIs parent level (key folder)
  nextOnce : queue.Nodup
  seen : ∀ entry, entry ∈ visited ↔
    entry ∈ entries ∧ ∃ level < depth, DepthIs parent level (key entry)
  seenOnce : visited.Nodup

theorem Browsed.initial : Browsed isFolder key parent entries 0 [none] [] where
  next place := by simp
  nextOnce := List.nodup_singleton _
  seen entry := by simp
  seenOnce := .nil

theorem Listed.key_inj (listed : Listed listing isFolder key parent entries) {left right : ρ}
    (leftMem : left ∈ entries) (rightMem : right ∈ entries) (same : key left = key right) :
    left = right :=
  List.inj_on_of_nodup_map listed.distinct leftMem rightMem same

/-- The folders of the queue hold the entries of the next level. -/
theorem Browsed.mem_level (listed : Listed listing isFolder key parent entries) {depth : Nat}
    {queue : List (Option κ)} {visited : List ρ}
    (browsed : Browsed isFolder key parent entries depth queue visited) {entry : ρ} :
    entry ∈ queue.flatMap listing ↔ entry ∈ entries ∧ DepthIs parent depth (key entry) := by
  rw [List.mem_flatMap]
  constructor
  · intro found
    rcases found with ⟨place, inQueue, inListing⟩
    rcases (listed.listed place entry).mp inListing with ⟨member, under⟩
    apply And.intro member
    rcases (browsed.next place).mp inQueue with
      ⟨isTop, isNone⟩ | ⟨folder, _, _, isFolder, level, isNext, depthOf⟩
    · rw [isTop, DepthIs.zero_iff, under, isNone]
    · rw [isNext]
      exact depthOf.child (under.trans isFolder)
  · intro atDepth
    rcases atDepth with ⟨member, depthOf⟩
    apply Exists.intro (parent (key entry))
    apply And.intro _ ((listed.listed _ entry).mpr ⟨member, rfl⟩)
    apply (browsed.next _).mpr
    cases depth with
    | zero => exact .inl ⟨rfl, DepthIs.zero_iff.mp depthOf⟩
    | succ level =>
        rcases DepthIs.succ_iff.mp depthOf with ⟨top, under, above⟩
        rcases listed.folders entry member top under with ⟨folder, folderMem, rfl, opens⟩
        exact .inr ⟨folder, folderMem, opens, under, level, rfl, above⟩

theorem Browsed.level_nodup (listed : Listed listing isFolder key parent entries) {depth : Nat}
    {queue : List (Option κ)} {visited : List ρ}
    (browsed : Browsed isFolder key parent entries depth queue visited) :
    (queue.flatMap listing).Nodup := by
  apply List.nodup_flatMap.mpr
  apply And.intro fun place _ => listed.once place
  apply browsed.nextOnce.imp
  intro left right different entry inLeft inRight
  have underLeft := ((listed.listed left entry).mp inLeft).2
  have underRight := ((listed.listed right entry).mp inRight).2
  exact different (underLeft.symm.trans underRight)

theorem Browsed.deeper (listed : Listed listing isFolder key parent entries) {depth : Nat}
    {queue : List (Option κ)} {visited : List ρ}
    (browsed : Browsed isFolder key parent entries depth queue visited) :
    Browsed isFolder key parent entries (depth + 1)
      (((queue.flatMap listing).filter isFolder).map fun entry => some (key entry))
      (visited ++ queue.flatMap listing) := by
  have level : ∀ entry, entry ∈ queue.flatMap listing ↔
      entry ∈ entries ∧ DepthIs parent depth (key entry) := fun _ => browsed.mem_level listed
  constructor
  case next =>
    intro place
    constructor
    · intro among
      rcases List.mem_map.mp among with ⟨folder, found, rfl⟩
      rcases List.mem_filter.mp found with ⟨inLevel, opens⟩
      rcases (level folder).mp inLevel with ⟨member, depthOf⟩
      exact .inr ⟨folder, member, opens, rfl, depth, rfl, depthOf⟩
    · intro either
      rcases either with ⟨isTop, _⟩ | ⟨folder, member, opens, rfl, above, isNext, depthOf⟩
      · exact absurd isTop (Nat.succ_ne_zero depth)
      · cases isNext
        apply List.mem_map.mpr
        exact ⟨folder, List.mem_filter.mpr ⟨(level folder).mpr ⟨member, depthOf⟩, opens⟩, rfl⟩
  case nextOnce =>
    apply ((browsed.level_nodup listed).filter _).map_on
    intro left leftMem right rightMem same
    have leftIn := ((level left).mp (List.mem_filter.mp leftMem).1).1
    have rightIn := ((level right).mp (List.mem_filter.mp rightMem).1).1
    exact listed.key_inj leftIn rightIn (Option.some.inj same)
  case seen =>
    intro entry
    rw [List.mem_append, browsed.seen, level, ← and_or_left]
    apply and_congr_right
    intro _
    constructor
    · intro either
      rcases either with ⟨above, less, depthOf⟩ | depthOf
      · exact ⟨above, Nat.lt_succ_of_lt less, depthOf⟩
      · exact ⟨depth, Nat.lt_succ_self depth, depthOf⟩
    · intro found
      rcases found with ⟨above, less, depthOf⟩
      rcases Nat.lt_or_eq_of_le (Nat.le_of_lt_succ less) with earlier | rfl
      · exact .inl ⟨above, earlier, depthOf⟩
      · exact .inr depthOf
  case seenOnce =>
    apply browsed.seenOnce.append (browsed.level_nodup listed)
    intro entry inVisited inLevel
    rcases (browsed.seen entry).mp inVisited with ⟨_, above, less, depthOf⟩
    exact absurd (depthOf.unique ((level entry).mp inLevel).2) (Nat.ne_of_lt less)

/-- Above an entry lie entries of every smaller depth. -/
theorem Listed.exists_above (listed : Listed listing isFolder key parent entries) {depth : Nat} :
    ∀ {more : Nat} {entry : ρ}, entry ∈ entries → DepthIs parent (depth + more) (key entry) →
      ∃ other ∈ entries, DepthIs parent depth (key other)
  | 0, entry, member, depthOf => ⟨entry, member, depthOf⟩
  | more + 1, entry, member, depthOf => by
      rcases DepthIs.succ_iff.mp depthOf with ⟨top, under, above⟩
      rcases listed.folders entry member top under with ⟨folder, folderMem, rfl, _⟩
      exact listed.exists_above folderMem above

/-- When no folder is left to open, everything has been seen. -/
theorem Browsed.complete (listed : Listed listing isFolder key parent entries) {depth : Nat}
    {visited : List ρ} (browsed : Browsed isFolder key parent entries depth [] visited)
    (grounded : ∀ entry ∈ entries, ∃ level, DepthIs parent level (key entry)) :
    visited.Perm entries := by
  apply (List.perm_ext_iff_of_nodup browsed.seenOnce (.of_map _ listed.distinct)).mpr
  intro entry
  rw [browsed.seen]
  apply and_iff_left_of_imp
  intro member
  rcases grounded entry member with ⟨level, depthOf⟩
  by_cases less : level < depth
  · exact ⟨level, less, depthOf⟩
  · rw [← Nat.add_sub_of_le (Nat.le_of_not_lt less)] at depthOf
    rcases listed.exists_above member depthOf with ⟨other, otherMem, atDepth⟩
    have found := (browsed.mem_level listed).mpr ⟨otherMem, atDepth⟩
    cases found

theorem Browsed.run (listed : Listed listing isFolder key parent entries) {height : Nat}
    (grounded : ∀ entry ∈ entries, ∃ level < height, DepthIs parent level (key entry)) :
    ∀ {fuel depth : Nat} {queue : List (Option κ)} {visited : List ρ},
      height < depth + fuel → Browsed isFolder key parent entries depth queue visited →
      ∃ final, byLevel listing isFolder key fuel queue visited = some final ∧
        final.Perm entries
  | fuel, _, [], visited, _, browsed => by
      have ends : byLevel listing isFolder key fuel [] visited = some visited := by
        cases fuel <;> rfl
      apply Exists.intro visited
      apply And.intro ends
      apply browsed.complete listed
      intro entry member
      rcases grounded entry member with ⟨level, _, depthOf⟩
      exact ⟨level, depthOf⟩
  | 0, depth, place :: rest, _, enough, browsed => by
      rcases (browsed.next place).mp List.mem_cons_self with
        ⟨isTop, _⟩ | ⟨folder, member, _, _, level, isNext, depthOf⟩
      · rw [isTop] at enough
        exact absurd enough (Nat.not_lt_zero height)
      · rcases grounded folder member with ⟨other, less, otherDepth⟩
        have same := depthOf.unique otherDepth
        omega
  | fuel + 1, depth, place :: rest, visited, enough, browsed => by
      have enoughNext : height < depth + 1 + fuel := by omega
      have next := browsed.deeper listed
      rcases Browsed.run listed grounded enoughNext next with ⟨final, runs, perm⟩
      exact ⟨final, runs, perm⟩

/-- In a forest every entry is visited, and none twice. -/
theorem byLevel_visits (listed : Listed listing isFolder key parent entries)
    (acyclic : Acyclic parent) (supported : Supported parent (entries.map key)) :
    ∃ visited, byLevel listing isFolder key (entries.length + 2) [none] [] = some visited ∧
      visited.Perm entries := by
  have grounded : ∀ entry ∈ entries, ∃ level < entries.length + 1,
      DepthIs parent level (key entry) := by
    intro entry _
    have ends := acyclic.ancestor_eq_none supported (key entry)
    rw [List.length_map] at ends
    rcases exists_depthIs ends with ⟨level, short, depthOf⟩
    exact ⟨level, Nat.lt_succ_of_le short, depthOf⟩
  apply Browsed.run listed grounded _ .initial
  rw [Nat.zero_add]
  exact Nat.lt_succ_self _

end Levels

end Forest
