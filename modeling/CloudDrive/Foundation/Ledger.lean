/-! # References into a store

Holders refer by key to what a store keeps. A key is given to one holder only,
and what a holder refers to must not be missing from the store. -/

structure Ledger (ι : Type u) (κ : Type v) where
  refers : ι → κ → Prop
  stored : κ → Prop

namespace Ledger

variable {ι : Type u} {κ : Type v}

structure Sound (ledger : Ledger ι κ) : Prop where
  present : ∀ {holder key}, ledger.refers holder key → ledger.stored key
  exclusive : ∀ {first second key}, ledger.refers first key → ledger.refers second key →
    first = second

variable {before after : Ledger ι κ}

/-- No reference was added, and what is still referred to is still stored. -/
theorem Sound.narrow (sound : Sound before)
    (refers : ∀ {holder key}, after.refers holder key → before.refers holder key)
    (stored : ∀ {holder key}, after.refers holder key → before.stored key → after.stored key) :
    Sound after where
  present reference := stored reference (sound.present (refers reference))
  exclusive first second := sound.exclusive (refers first) (refers second)

/-- Something was stored under a new key for one holder. -/
theorem Sound.store (sound : Sound before) (owner : ι) (new : κ) (fresh : ¬ before.stored new)
    (refers : ∀ {holder key}, after.refers holder key →
      before.refers holder key ∨ (holder = owner ∧ key = new))
    (kept : ∀ {holder key}, after.refers holder key → before.stored key → after.stored key)
    (storedNew : after.stored new) : Sound after where
  present reference := by
    rcases refers reference with earlier | ⟨_, rfl⟩
    · exact kept reference (sound.present earlier)
    · exact storedNew
  exclusive first second := by
    rcases refers first with earlierFirst | ⟨rfl, rfl⟩
    · rcases refers second with earlierSecond | ⟨rfl, rfl⟩
      · exact sound.exclusive earlierFirst earlierSecond
      · exact absurd (sound.present earlierFirst) fresh
    · rcases refers second with earlierSecond | ⟨rfl, _⟩
      · exact absurd (sound.present earlierSecond) fresh
      · rfl

/-- The holders `gone` lost references, and of the keys they referred to those
were discarded that only they might still refer to. -/
theorem Sound.erase (sound : Sound before) (gone : ι → Prop) (discarded : κ → Prop)
    (refers : ∀ {holder key}, after.refers holder key → before.refers holder key)
    (theirs : ∀ {key}, discarded key → ∃ holder, gone holder ∧ before.refers holder key)
    (spared : ∀ {holder key}, after.refers holder key → discarded key → ¬ gone holder)
    (kept : ∀ {key}, before.stored key → ¬ discarded key → after.stored key) :
    Sound after := by
  apply sound.narrow refers
  intro holder key reference wasStored
  apply kept wasStored
  intro isDiscarded
  rcases theirs isDiscarded with ⟨owner, isGone, owned⟩
  have same := sound.exclusive owned (refers reference)
  exact spared reference isDiscarded (same ▸ isGone)

end Ledger
