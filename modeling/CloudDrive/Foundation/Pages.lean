import CloudDrive.Foundation.Blocks
import Mathlib.Algebra.GroupWithZero.Nat
import Mathlib.Data.List.Sort
import Mathlib.Data.List.Perm.Basic

/-! # Pages of a listing with ties

Every page is cut out of a listing of its own, and a listing may put rows that the
order does not separate in any order. -/

namespace Pages

open Blocks

variable {α : Type u}

/-- The rows in an order in which each comes before those that follow it. -/
structure Listing (before : α → α → Bool) (rows listed : List α) : Prop where
  perm : listed.Perm rows
  sorted : listed.Pairwise fun left right => before left right = true

/-- The number of rows that precede this one in every listing. -/
def lead (before : α → α → Bool) (rows : List α) (row : α) : Nat :=
  rows.countP fun other => before other row && !before row other

/-- The number of rows up to the last one that may stand where this one does. -/
def reach (before : α → α → Bool) (rows : List α) (row : α) : Nat :=
  rows.countP fun other => before other row

/-- A cut after `length` rows separates no rows that the order leaves together. -/
def Uncut (before : α → α → Bool) (rows : List α) (length : Nat) : Prop :=
  ∀ row ∈ rows, reach before rows row ≤ length ∨ length ≤ lead before rows row

instance (before : α → α → Bool) (rows : List α) (length : Nat) :
    Decidable (Uncut before rows length) :=
  inferInstanceAs (Decidable (∀ row ∈ rows, _))

/-- The first pages, each cut out of its own listing. -/
def readPages (size : Nat) (listings : Nat → List α) (number : Nat) : List α :=
  (List.range number).flatMap fun page => block size (listings page) page

variable {before : α → α → Bool} {rows listed : List α}

namespace Listing

theorem lead_eq (listing : Listing before rows listed) (row : α) :
    lead before rows row = lead before listed row :=
  (listing.perm.countP_eq _).symm

theorem reach_eq (listing : Listing before rows listed) (row : α) :
    reach before rows row = reach before listed row :=
  (listing.perm.countP_eq _).symm

/-- A row stands behind its lead. -/
theorem lead_le (listing : Listing before rows listed) (refl : ∀ row, before row row = true)
    {earlier later : List α} {row : α} (split : listed = earlier ++ row :: later) :
    lead before rows row ≤ earlier.length := by
  have sorted := listing.sorted
  rw [split, List.pairwise_append, List.pairwise_cons] at sorted
  have noneLater : later.countP (fun other => before other row && !before row other) = 0 := by
    apply List.countP_eq_zero.mpr
    intro other member
    simp [sorted.2.1.1 other member]
  rw [listing.lead_eq, split, lead, List.countP_append, List.countP_cons, noneLater, refl]
  exact List.countP_le_length

/-- A row stands within its reach. -/
theorem lt_reach (listing : Listing before rows listed) (refl : ∀ row, before row row = true)
    {earlier later : List α} {row : α} (split : listed = earlier ++ row :: later) :
    earlier.length < reach before rows row := by
  have sorted := listing.sorted
  rw [split, List.pairwise_append] at sorted
  have allEarlier : earlier.countP (fun other => before other row) = earlier.length :=
    List.countP_eq_length.mpr fun other member =>
      sorted.2.2 other member row List.mem_cons_self
  rw [listing.reach_eq, split, reach, List.countP_append, List.countP_cons, allEarlier, refl,
    if_pos rfl]
  omega

/-! ## Pages that hold the same rows in every listing -/

/-- Where the cut separates nothing that belongs together, it is clear which rows come
before it. -/
theorem take_eq_filter (listing : Listing before rows listed)
    (refl : ∀ row, before row row = true) {length : Nat} (uncut : Uncut before rows length) :
    listed.take length =
      listed.filter fun row => decide (reach before rows row ≤ length) := by
  have early : ∀ row ∈ listed.take length, reach before rows row ≤ length := by
    intro row member
    rcases List.append_of_mem member with ⟨earlier, later, split⟩
    have whole : listed = earlier ++ row :: (later ++ listed.drop length) := by
      rw [← List.cons_append, ← List.append_assoc, ← split, List.take_append_drop]
    have short : earlier.length < length := by
      have bound := congrArg List.length split
      rw [List.length_take, List.length_append, List.length_cons] at bound
      omega
    have behind := listing.lead_le refl whole
    rcases uncut row (listing.perm.mem_iff.mp (List.mem_of_mem_take member)) with within | beyond
    · exact within
    · omega
  have late : ∀ row ∈ listed.drop length, ¬ reach before rows row ≤ length := by
    intro row member
    rcases List.append_of_mem member with ⟨earlier, later, split⟩
    have whole : listed = (listed.take length ++ earlier) ++ row :: later := by
      rw [List.append_assoc, ← split, List.take_append_drop]
    have within := listing.lt_reach refl whole
    have long : length ≤ (listed.take length ++ earlier).length := by
      have some := List.length_pos_of_mem member
      rw [List.length_drop] at some
      rw [List.length_append, List.length_take]
      omega
    omega
  have none : (listed.drop length).filter
      (fun row => decide (reach before rows row ≤ length)) = [] :=
    List.filter_eq_nil_iff.mpr fun row member => by simp [late row member]
  have all : (listed.take length).filter
      (fun row => decide (reach before rows row ≤ length)) = listed.take length :=
    List.filter_eq_self.mpr fun row member => by simp [early row member]
  have parts := List.filter_append (p := fun row => decide (reach before rows row ≤ length))
    (listed.take length) (listed.drop length)
  rw [List.take_append_drop, none, all, List.append_nil] at parts
  exact parts.symm

theorem take_perm {other : List α} (listing : Listing before rows listed)
    (second : Listing before rows other) (refl : ∀ row, before row row = true) {length : Nat}
    (uncut : Uncut before rows length) : (listed.take length).Perm (other.take length) := by
  rw [listing.take_eq_filter refl uncut, second.take_eq_filter refl uncut]
  exact (listing.perm.trans second.perm.symm).filter _

/-- A page between two such cuts holds the same rows in every listing. -/
theorem block_perm {other : List α} (listing : Listing before rows listed)
    (second : Listing before rows other) (refl : ∀ row, before row row = true)
    {size page : Nat} (starts : Uncut before rows (page * size))
    (ends : Uncut before rows ((page + 1) * size)) :
    (block size listed page).Perm (block size other page) := by
  have cut : ∀ each : List α,
      each.take ((page + 1) * size) = each.take (page * size) ++ block size each page := by
    intro each
    rw [Nat.succ_mul, List.take_add, block]
  have whole := listing.take_perm second refl ends
  rw [cut, cut] at whole
  exact (List.perm_append_left_iff _).mp
    (((listing.take_perm second refl starts).symm.append_right _).trans whole)

end Listing

theorem readPages_perm (refl : ∀ row, before row row = true) {size : Nat} (positive : 0 < size)
    (uncut : ∀ page, Uncut before rows (page * size)) {listings : Nat → List α}
    (listing : ∀ page, Listing before rows (listings page)) :
    (readPages size listings (count size rows.length)).Perm rows := by
  have same : (readPages size listings (count size rows.length)).Perm
      ((List.range (count size rows.length)).flatMap (block size (listings 0))) :=
    .flatMap_left _ fun page _ =>
      (listing page).block_perm (listing 0) refl (uncut page) (uncut (page + 1))
  have long : (listings 0).length = rows.length := (listing 0).perm.length_eq
  rw [← long, flatMap_blocks positive] at same
  rw [← long]
  exact same.trans (listing 0).perm

/-! ## Where a row can stand -/

/-- A cut after `length` rows separates no places at which the row can stand. -/
def Fixed (before : α → α → Bool) (rows : List α) (length : Nat) (row : α) : Prop :=
  reach before rows row ≤ length ∨ length ≤ lead before rows row

/-- A row that is tied with no other one has one place, which no cut separates. -/
theorem fixed_of_untied [DecidableEq α] (nodup : rows.Nodup) {row : α}
    (untied : ∀ other ∈ rows, before other row = true → before row other = true → other = row)
    (length : Nat) : Fixed before rows length row := by
  have tied : (rows.filter fun other => !!before row other).countP (fun other => before other row) ≤
      rows.count row := by
    rw [List.countP_filter, List.count]
    apply List.countP_mono_left
    intro other member both
    rw [Bool.and_eq_true, Bool.not_not] at both
    exact beq_iff_eq.mpr (untied other member both.1 both.2)
  have parts := List.countP_eq_countP_filter_add rows (fun other => before other row)
    (fun other => !before row other)
  have one := List.nodup_iff_count_le_one.mp nodup row
  rw [List.countP_filter] at parts
  rw [Fixed, reach, lead, parts]
  omega

/-- The order that puts the row before those tied with it. -/
def earliest [DecidableEq α] (before : α → α → Bool) (row left right : α) : Bool :=
  before left right && (!before right left || decide (left = row) || decide (right ≠ row))

/-- The order that puts the row behind those tied with it. -/
def latest [DecidableEq α] (before : α → α → Bool) (row left right : α) : Bool :=
  before left right && (!before right left || decide (left ≠ row) || decide (right = row))

theorem listing_insertionSort
    (total : ∀ left right, before left right = true ∨ before right left = true)
    (trans : ∀ {left middle right}, before left middle = true → before middle right = true →
      before left right = true) (rows : List α) :
    Listing before rows (rows.insertionSort fun left right => before left right = true) := by
  have isTotal : Std.Total fun left right => before left right = true := ⟨total⟩
  have isTrans : IsTrans α fun left right => before left right = true := ⟨fun _ _ _ => trans⟩
  exact ⟨List.perm_insertionSort _ rows, List.pairwise_insertionSort _ rows⟩

theorem Listing.of_finer {finer : α → α → Bool} (listing : Listing finer rows listed)
    (sub : ∀ left right, finer left right = true → before left right = true) :
    Listing before rows listed :=
  ⟨listing.perm, listing.sorted.imp fun {left right} => sub left right⟩

/-- A row stands somewhere in the listing of a finer order. -/
theorem exists_split {finer : α → α → Bool}
    (total : ∀ left right, finer left right = true ∨ finer right left = true)
    (trans : ∀ {left middle right}, finer left middle = true → finer middle right = true →
      finer left right = true)
    (sub : ∀ left right, finer left right = true → before left right = true) {row : α}
    (member : row ∈ rows) :
    ∃ earlier later, Listing finer rows (earlier ++ row :: later) ∧
      Listing before rows (earlier ++ row :: later) := by
  have sorted := listing_insertionSort total trans rows
  rcases List.append_of_mem (sorted.perm.mem_iff.mpr member) with ⟨earlier, later, split⟩
  rw [split] at sorted
  exact ⟨earlier, later, sorted, sorted.of_finer sub⟩

section Places

variable [DecidableEq α]

/-- Some listing has nothing before the row but its lead. -/
theorem exists_earliest (nodup : rows.Nodup)
    (total : ∀ left right, before left right = true ∨ before right left = true)
    (trans : ∀ {left middle right}, before left middle = true → before middle right = true →
      before left right = true) {row : α} (member : row ∈ rows) :
    ∃ earlier later, Listing before rows (earlier ++ row :: later) ∧
      earlier.length ≤ lead before rows row := by
  have finer : ∀ left right, earliest before row left right = true →
      before left right = true := by
    intro left right
    simp only [earliest, Bool.and_eq_true]
    exact And.left
  have isTotal : ∀ left right, earliest before row left right = true ∨
      earliest before row right left = true := by
    intro left right
    have either := total left right
    simp only [earliest, Bool.and_eq_true, Bool.or_eq_true, Bool.not_eq_true', decide_eq_true_eq]
    grind
  have isTrans : ∀ {left middle right}, earliest before row left middle = true →
      earliest before row middle right = true → earliest before row left right = true := by
    intro left middle right first second
    have onward := @trans left middle right
    have back := @trans right left middle
    have around := @trans middle right left
    simp only [earliest, Bool.and_eq_true, Bool.or_eq_true, Bool.not_eq_true',
      decide_eq_true_eq] at first second ⊢
    grind
  rcases exists_split isTotal isTrans finer member with ⟨earlier, later, sorted, listing⟩
  apply Exists.intro earlier
  apply Exists.intro later
  apply And.intro listing
  have distinct := listing.perm.nodup_iff.mpr nodup
  have strictly : ∀ other ∈ earlier, (before other row && !before row other) = true := by
    intro other isEarlier
    have order := (List.pairwise_append.mp sorted.sorted).2.2 other isEarlier row List.mem_cons_self
    have different : other ≠ row :=
      (List.nodup_append.mp distinct).2.2 other isEarlier row List.mem_cons_self
    simp only [earliest, Bool.and_eq_true, Bool.or_eq_true, Bool.not_eq_true',
      decide_eq_true_eq, different, ne_eq, not_true_eq_false, or_false] at order
    rw [order.1, order.2]
    rfl
  rw [listing.lead_eq, lead, List.countP_append, List.countP_eq_length.mpr strictly]
  exact Nat.le_add_right _ _

/-- Some listing has everything before the row that is within its reach. -/
theorem exists_latest (nodup : rows.Nodup)
    (total : ∀ left right, before left right = true ∨ before right left = true)
    (trans : ∀ {left middle right}, before left middle = true → before middle right = true →
      before left right = true) {row : α} (member : row ∈ rows) :
    ∃ earlier later, Listing before rows (earlier ++ row :: later) ∧
      reach before rows row ≤ earlier.length + 1 := by
  have finer : ∀ left right, latest before row left right = true →
      before left right = true := by
    intro left right
    simp only [latest, Bool.and_eq_true]
    exact And.left
  have isTotal : ∀ left right, latest before row left right = true ∨
      latest before row right left = true := by
    intro left right
    have either := total left right
    simp only [latest, Bool.and_eq_true, Bool.or_eq_true, Bool.not_eq_true', decide_eq_true_eq]
    grind
  have isTrans : ∀ {left middle right}, latest before row left middle = true →
      latest before row middle right = true → latest before row left right = true := by
    intro left middle right first second
    have onward := @trans left middle right
    have back := @trans right left middle
    have around := @trans middle right left
    simp only [latest, Bool.and_eq_true, Bool.or_eq_true, Bool.not_eq_true',
      decide_eq_true_eq] at first second ⊢
    grind
  rcases exists_split isTotal isTrans finer member with ⟨earlier, later, sorted, listing⟩
  apply Exists.intro earlier
  apply Exists.intro later
  apply And.intro listing
  have distinct := listing.perm.nodup_iff.mpr nodup
  have beyond : ∀ other ∈ later, ¬ before other row = true := by
    intro other isLater
    have behind := (List.pairwise_append.mp sorted.sorted).2.1
    have order := (List.pairwise_cons.mp behind).1 other isLater
    have different : other ≠ row := by
      intro same
      have notLater := (List.nodup_cons.mp (List.nodup_append.mp distinct).2.1).1
      exact notLater (same ▸ isLater)
    simp only [latest, Bool.and_eq_true, Bool.or_eq_true, Bool.not_eq_true',
      decide_eq_true_eq, different, ne_eq, not_true_eq_false, or_false] at order
    rw [order.2]
    exact Bool.false_ne_true
  have inEarlier : earlier.countP (fun other => before other row) ≤ earlier.length :=
    List.countP_le_length
  have notLater : later.countP (fun other => before other row) = 0 :=
    List.countP_eq_zero.mpr beyond
  have here := (total row row).elim id id
  rw [listing.reach_eq, reach, List.countP_append, List.countP_cons, notLater, here, if_pos rfl]
  omega

end Places

theorem block_subset_take {size : Nat} {content : List α} {page last : Nat}
    (earlier : page < last) : block size content page ⊆ content.take (last * size) := by
  have fits : (page + 1) * size ≤ last * size := Nat.mul_le_mul_right size earlier
  have inFirst : block size content page ⊆ content.take ((page + 1) * size) := by
    rw [Nat.succ_mul, List.take_add, block]
    exact List.subset_append_right _ _
  exact List.Subset.trans inFirst (List.take_subset_take_left content fits)

theorem block_subset_drop {size : Nat} {content : List α} {page first : Nat}
    (later : first ≤ page) : block size content page ⊆ content.drop (first * size) := by
  have starts : first * size ≤ page * size := Nat.mul_le_mul_right size later
  have inRest : block size content page ⊆ content.drop (page * size) :=
    List.take_subset _ _
  exact List.Subset.trans inRest (List.drop_subset_drop_left content starts)

theorem not_mem_take {earlier later : List α} {row : α} (nodup : (earlier ++ row :: later).Nodup)
    {length : Nat} (short : length ≤ earlier.length) :
    row ∉ (earlier ++ row :: later).take length := by
  rw [List.take_append_of_le_length short]
  intro member
  exact (List.nodup_append.mp nodup).2.2 row (List.mem_of_mem_take member) row
    List.mem_cons_self rfl

theorem not_mem_drop {earlier later : List α} {row : α} (nodup : (earlier ++ row :: later).Nodup)
    {length : Nat} (long : earlier.length < length) :
    row ∉ (earlier ++ row :: later).drop length := by
  have inLater : (earlier ++ row :: later).drop length =
      later.drop (length - earlier.length - 1) := by
    rw [List.append_cons, List.drop_append, List.drop_eq_nil_of_le, List.nil_append,
      List.length_append, List.length_singleton, Nat.sub_add_eq]
    rw [List.length_append, List.length_singleton]
    exact long
  rw [inLater]
  intro member
  exact (List.nodup_cons.mp (List.nodup_append.mp nodup).2.1).1 (List.mem_of_mem_drop member)

/-- A row that can stand on both sides of a cut can be missed by every page. -/
theorem exists_lost (nodup : rows.Nodup)
    (total : ∀ left right, before left right = true ∨ before right left = true)
    (trans : ∀ {left middle right}, before left middle = true → before middle right = true →
      before left right = true) {size last : Nat} {row : α} (member : row ∈ rows)
    (cut : ¬ Fixed before rows (last * size) row) :
    ∃ listings : Nat → List α, (∀ page, Listing before rows (listings page)) ∧
      ∀ page, row ∉ block size (listings page) page := by
  classical
  rw [Fixed, not_or, Nat.not_le, Nat.not_le] at cut
  rcases cut with ⟨within, behind⟩
  rcases exists_earliest nodup total trans member with ⟨before₁, after₁, early, isEarly⟩
  rcases exists_latest nodup total trans member with ⟨before₂, after₂, late, isLate⟩
  -- The pages up to the cut come from the listing in which the row stands behind it.
  let listings : Nat → List α := fun page =>
    if page < last then before₂ ++ row :: after₂ else before₁ ++ row :: after₁
  apply Exists.intro listings
  constructor
  · intro page
    by_cases first : page < last
    · simpa only [listings, if_pos first] using late
    · simpa only [listings, if_neg first] using early
  · intro page among
    by_cases first : page < last
    · simp only [listings, if_pos first] at among
      exact not_mem_take (late.perm.nodup_iff.mpr nodup) (by omega)
        (block_subset_take first among)
    · simp only [listings, if_neg first] at among
      exact not_mem_drop (early.perm.nodup_iff.mpr nodup) (by omega)
        (block_subset_drop (not_lt.mp first) among)

theorem sum_indicator (home : Nat) : ∀ pages : List Nat,
    (pages.map fun page => if page = home then 1 else 0).sum = pages.count home
  | [] => rfl
  | page :: rest => by
      rw [List.map_cons, List.sum_cons, sum_indicator home rest, List.count_cons, Nat.add_comm]
      simp only [beq_iff_eq]

/-- A row with one place in the order stands in one page, whatever the listings. -/
theorem count_readPages [DecidableEq α] (nodup : rows.Nodup)
    (refl : ∀ row, before row row = true) {size : Nat} (positive : 0 < size) {row : α}
    (member : row ∈ rows) (fixed : ∀ page, Fixed before rows (page * size) row)
    {listings : Nat → List α} (listing : ∀ page, Listing before rows (listings page)) :
    (readPages size listings (count size rows.length)).count row = 1 := by
  let home := lead before rows row / size
  have starts : home * size ≤ lead before rows row := Nat.div_mul_le_self _ _
  have behind : lead before rows row < (home + 1) * size :=
    (Nat.div_lt_iff_lt_mul positive).mp (Nat.lt_succ_self home)
  have ends : reach before rows row ≤ (home + 1) * size := by
    rcases fixed (home + 1) with within | beyond
    · exact within
    · omega
  -- In every listing the row stands on page `home`.
  have once : ∀ page, (block size (listings page) page).count row =
      if page = home then 1 else 0 := by
    intro page
    have distinct := (listing page).perm.nodup_iff.mpr nodup
    rcases List.append_of_mem ((listing page).perm.mem_iff.mpr member) with
      ⟨earlier, later, split⟩
    have least := (listing page).lead_le refl split
    have most := (listing page).lt_reach refl split
    have parts : (block size (listings page) page).Nodup :=
      (distinct.drop).take
    rw [split] at distinct
    by_cases isHome : page = home
    · rw [if_pos isHome]
      apply List.count_eq_one_of_mem parts
      apply List.mem_of_getElem? (i := earlier.length - page * size)
      have here : page * size ≤ earlier.length := by rw [isHome]; omega
      have short : earlier.length - page * size < size := by
        rw [isHome]
        rw [Nat.succ_mul] at ends
        omega
      rw [block, List.getElem?_take, if_pos short, List.getElem?_drop, Nat.add_sub_cancel' here,
        split, List.getElem?_append_right (Nat.le_refl _), Nat.sub_self]
      rfl
    · rw [if_neg isHome, List.count_eq_zero]
      intro among
      rcases Nat.lt_or_gt_of_ne isHome with sooner | later
      · have inTake := block_subset_take sooner among
        rw [split] at inTake
        exact not_mem_take distinct (by omega) inTake
      · have inDrop : row ∈ (listings page).drop ((home + 1) * size) :=
          block_subset_drop later among
        rw [split] at inDrop
        exact not_mem_drop distinct (by omega) inDrop
  have inside : home < count size rows.length := by
    rw [lt_count_iff positive]
    rcases List.append_of_mem ((listing 0).perm.mem_iff.mpr member) with ⟨earlier, later, split⟩
    have least := (listing 0).lead_le refl split
    have length := (listing 0).perm.length_eq
    rw [split, List.length_append, List.length_cons] at length
    omega
  rw [readPages, List.count_flatMap]
  have counts : List.map (List.count row ∘ fun page => block size (listings page) page)
      (List.range (count size rows.length)) =
      (List.range (count size rows.length)).map fun page => if page = home then 1 else 0 :=
    List.map_congr_left fun page _ => once page
  rw [counts, sum_indicator]
  exact List.count_eq_one_of_mem List.nodup_range (List.mem_range.mpr inside)

/-- The pages hold every row once, whatever listing each is cut out of, exactly when no
page ends between rows that the order leaves together. -/
theorem complete_iff (nodup : rows.Nodup)
    (total : ∀ left right, before left right = true ∨ before right left = true)
    (trans : ∀ {left middle right}, before left middle = true → before middle right = true →
      before left right = true) {size : Nat} (positive : 0 < size) :
    (∀ listings : Nat → List α, (∀ page, Listing before rows (listings page)) →
        (readPages size listings (count size rows.length)).Perm rows) ↔
      ∀ page, Uncut before rows (page * size) := by
  constructor
  · intro complete last
    by_contra cut
    rw [Uncut] at cut
    push Not at cut
    rcases cut with ⟨lost, member, within, behind⟩
    have apart : ¬ Fixed before rows (last * size) lost := by
      rw [Fixed, not_or, Nat.not_le, Nat.not_le]
      exact ⟨within, behind⟩
    rcases exists_lost nodup total trans member apart with ⟨listings, listing, missing⟩
    have read := (complete listings listing).mem_iff.mpr member
    rcases List.mem_flatMap.mp read with ⟨page, _, among⟩
    exact missing page among
  · intro uncut listings listing
    exact readPages_perm (fun row => (total row row).elim id id) positive uncut listing

end Pages
