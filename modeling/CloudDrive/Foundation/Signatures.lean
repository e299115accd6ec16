import Mathlib.Data.List.Infix

/-! # The first signature in a text

A signature is a part that a text may contain. Up to the first place where one starts, the
text contains none. -/

namespace Signatures

variable {α : Type u} {isSign : List α → Prop} {starts : List α → Bool}

/-- Some part of the text is a signature. -/
def Contains (isSign : List α → Prop) (text : List α) : Prop :=
  ∃ part, isSign part ∧ part <:+: text

theorem Contains.inside {shorter text : List α} (contains : Contains isSign shorter)
    (isPart : shorter <:+: text) : Contains isSign text := by
  rcases contains with ⟨part, sign, inShorter⟩
  exact ⟨part, sign, inShorter.trans isPart⟩

/-- `starts` tells whether a text begins with a signature. -/
def Tells (isSign : List α → Prop) (starts : List α → Bool) : Prop :=
  ∀ text, starts text = true ↔ ∃ part, isSign part ∧ part <+: text

variable {text : List α}

theorem findIdx?_tails_eq_none (tells : Tells isSign starts) :
    text.tails.findIdx? starts = none ↔ ¬ Contains isSign text := by
  rw [List.findIdx?_eq_none_iff]
  constructor
  · rintro never ⟨part, sign, before, after, rfl⟩
    have isTail : part ++ after ∈ (before ++ part ++ after).tails := by
      rw [List.mem_tails, List.append_assoc]
      exact List.suffix_append before (part ++ after)
    have begins : starts (part ++ after) = true :=
      (tells _).mpr ⟨part, sign, List.prefix_append part after⟩
    rw [never _ isTail] at begins
    cases begins
  · intro clean rest isTail
    rw [← Bool.not_eq_true]
    intro begins
    rcases (tells rest).mp begins with ⟨part, sign, isFirst⟩
    exact clean ⟨part, sign, isFirst.isInfix.trans ((List.mem_tails rest text).mp isTail).isInfix⟩

/-- The first place is not behind any place where a signature starts. -/
theorem findIdx?_tails_le (tells : Tells isSign starts) : ∀ {text before part after : List α}
    {cut : Nat}, text.tails.findIdx? starts = some cut → isSign part →
    text = before ++ (part ++ after) → cut ≤ before.length
  | text, [], part, after, cut, found, sign, split => by
      have begins : starts text = true := by
        rw [split]
        exact (tells _).mpr ⟨part, sign, List.prefix_append part after⟩
      have isHead : text.tails = text :: text.tails.tail := by
        cases text <;> rfl
      rw [isHead, List.findIdx?_cons, if_pos begins] at found
      cases found
      exact Nat.le_refl 0
  | text, char :: before, part, after, cut, found, sign, split => by
      rw [split, List.cons_append, List.tails_cons, List.findIdx?_cons] at found
      split at found
      · cases found
        exact Nat.zero_le _
      · rcases Option.map_eq_some_iff.mp found with ⟨earlier, inRest, rfl⟩
        exact Nat.succ_le_succ (findIdx?_tails_le tells inRest sign rfl)

/-- A beginning that ends at the first place or before contains no signature. -/
theorem not_contains_take (tells : Tells isSign starts) (takes : ∀ part, isSign part → part ≠ [])
    {bound : Nat} (least : ∀ cut, text.tails.findIdx? starts = some cut → bound ≤ cut) :
    ¬ Contains isSign (text.take bound) := by
  rintro ⟨part, sign, before, after, split⟩
  have whole : text = before ++ (part ++ (after ++ text.drop bound)) := by
    rw [← List.append_assoc, ← List.append_assoc, split, List.take_append_drop]
  cases found : text.tails.findIdx? starts with
  | none =>
      apply (findIdx?_tails_eq_none tells).mp found
      exact ⟨part, sign, before, after ++ text.drop bound, by rw [List.append_assoc, ← whole]⟩
  | some cut =>
      have behind : bound ≤ before.length :=
        (least cut found).trans (findIdx?_tails_le tells found sign whole)
      have lengths := congrArg List.length split
      rw [List.length_append, List.length_append, List.length_take] at lengths
      have positive : 0 < part.length := List.length_pos_iff.mpr (takes part sign)
      omega

end Signatures
