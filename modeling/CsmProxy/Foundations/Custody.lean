import Mathlib.Logic.Basic

/-!
# Items that are in one place

Items are issued, and then each is with a holder, or in a slot, or gone. A step takes an item
from one place to another, so that no item is ever in two (`Custody.Sound.step`).
-/

namespace CsmProxy.Foundations

/-- Who holds which item, and which is in which slot. -/
structure Custody (ι κ α : Type) where
  held : ι → Option α
  stored : κ → Option α

namespace Custody

variable {ι κ α : Type}

/-- Only items that were issued are in a place, and each is in one. -/
structure Sound (issued : α → Prop) (T : Custody ι κ α) : Prop where
  held_issued : ∀ i a, T.held i = some a → issued a
  stored_issued : ∀ k a, T.stored k = some a → issued a
  one_holder : ∀ i j a, T.held i = some a → T.held j = some a → i = j
  one_slot : ∀ k l a, T.stored k = some a → T.stored l = some a → k = l
  apart : ∀ i k a, T.held i = some a → T.stored k ≠ some a

/-- Every item is where it was, or gone. -/
structure Less (T T' : Custody ι κ α) : Prop where
  held : ∀ i a, T'.held i = some a → T.held i = some a
  stored : ∀ k a, T'.stored k = some a → T.stored k = some a

/-- One item at most goes to another place. -/
inductive Step (issued issued' : α → Prop) (T T' : Custody ι κ α) : Prop
  | less (less : T.Less T')
  /-- A holder gets a new item. -/
  | acquire {i : ι} {a : α} (new : ¬ issued a) (issue : issued' a) (self : T'.held i = some a)
    (held : ∀ j b, T'.held j = some b → j = i ∨ T.held j = some b)
    (stored : ∀ k b, T'.stored k = some b → T.stored k = some b)
  /-- A holder puts its item into a slot. -/
  | store {i : ι} {k : κ} {a : α} (self : T.held i = some a) (empty : T'.held i = none)
    (held : ∀ j b, T'.held j = some b → T.held j = some b)
    (stored : ∀ l b, T'.stored l = some b → (l = k ∧ b = a) ∨ (l ≠ k ∧ T.stored l = some b))
  /-- A holder takes what is in a slot. -/
  | take {i : ι} {k : κ} (self : T'.held i = T.stored k) (empty : T'.stored k = none)
    (held : ∀ j b, T'.held j = some b → j = i ∨ T.held j = some b)
    (stored : ∀ l b, T'.stored l = some b → T.stored l = some b)

theorem Sound.initial {issued : α → Prop} {T : Custody ι κ α} (held : ∀ i, T.held i = none)
    (stored : ∀ k, T.stored k = none) : Sound issued T where
  held_issued i a h := by rw [held i] at h; cases h
  stored_issued k a h := by rw [stored k] at h; cases h
  one_holder i j a h := by rw [held i] at h; cases h
  one_slot k l a h := by rw [stored k] at h; cases h
  apart i k a h := by rw [held i] at h; cases h

theorem Sound.step {issued issued' : α → Prop} {T T' : Custody ι κ α} (s : Sound issued T)
    (mono : ∀ a, issued a → issued' a) (hs : Step issued issued' T T') : Sound issued' T' := by
  cases hs with
  | less less =>
    exact {
      held_issued := fun i a h => mono a (s.held_issued i a (less.held i a h))
      stored_issued := fun k a h => mono a (s.stored_issued k a (less.stored k a h))
      one_holder := fun i j a hi hj => s.one_holder i j a (less.held i a hi) (less.held j a hj)
      one_slot := fun k l a hk hl => s.one_slot k l a (less.stored k a hk) (less.stored l a hl)
      apart := fun i k a hi hk => s.apart i k a (less.held i a hi) (less.stored k a hk) }
  | @acquire i a unissued issue self held stored =>
    -- nobody else has an item that is new
    have old : ∀ j b, j ≠ i → T'.held j = some b → T.held j = some b ∧ b ≠ a := by
      intro j b hne hj
      rcases held j b hj with rfl | hold
      · exact absurd rfl hne
      · refine ⟨hold, ?_⟩
        rintro rfl
        exact unissued (s.held_issued j _ hold)
    refine ⟨?_, fun k b h => mono b (s.stored_issued k b (stored k b h)), ?_,
      fun k l b hk hl => s.one_slot k l b (stored k b hk) (stored l b hl), ?_⟩
    · intro j b hj
      by_cases hji : j = i
      · obtain rfl := hji
        obtain rfl := Option.some.inj (self.symm.trans hj)
        exact issue
      · exact mono b (s.held_issued j b (old j b hji hj).1)
    · intro j l b hj hl
      by_cases hji : j = i <;> by_cases hli : l = i
      · exact hji.trans hli.symm
      · obtain rfl := hji
        obtain rfl := Option.some.inj (self.symm.trans hj)
        exact absurd rfl (old l _ hli hl).2
      · obtain rfl := hli
        obtain rfl := Option.some.inj (self.symm.trans hl)
        exact absurd rfl (old j _ hji hj).2
      · exact s.one_holder j l b (old j b hji hj).1 (old l b hli hl).1
    · intro j k b hj hk
      by_cases hji : j = i
      · obtain rfl := hji
        obtain rfl := Option.some.inj (self.symm.trans hj)
        exact unissued (s.stored_issued k _ (stored k _ hk))
      · exact s.apart j k b (old j b hji hj).1 (stored k b hk)
  | @store i k a self empty held stored =>
    have other : ∀ j b, T'.held j = some b → b ≠ a := by
      rintro j b hj rfl
      obtain rfl := s.one_holder j i b (held j b hj) self
      rw [empty] at hj
      cases hj
    refine ⟨fun j b hj => mono b (s.held_issued j b (held j b hj)), fun l b h => ?_,
      fun j l b hj hl => s.one_holder j l b (held j b hj) (held l b hl), ?_, ?_⟩
    · rcases stored l b h with ⟨-, rfl⟩ | ⟨-, hold⟩
      · exact mono b (s.held_issued i b self)
      · exact mono b (s.stored_issued l b hold)
    · intro l m b hl hm
      rcases stored l b hl with ⟨rfl, rfl⟩ | ⟨-, hold⟩ <;>
        rcases stored m b hm with ⟨rfl, hb⟩ | ⟨-, hold'⟩
      · rfl
      · exact absurd hold' (s.apart i m b self)
      · exact absurd hold (s.apart i l b (hb ▸ self))
      · exact s.one_slot l m b hold hold'
    · intro j l b hj hl
      rcases stored l b hl with ⟨-, rfl⟩ | ⟨-, hold⟩
      · exact other j b hj rfl
      · exact s.apart j l b (held j b hj) hold
  | @take i k self empty held stored =>
    -- what the holder has now was in the slot
    have hslot : ∀ b, T'.held i = some b → T.stored k = some b := fun b h => self.symm.trans h
    refine ⟨?_, fun l b h => mono b (s.stored_issued l b (stored l b h)), ?_,
      fun l m b hl hm => s.one_slot l m b (stored l b hl) (stored m b hm), ?_⟩
    · intro j b hj
      by_cases hji : j = i
      · obtain rfl := hji
        exact mono b (s.stored_issued k b (hslot b hj))
      · exact mono b (s.held_issued j b ((held j b hj).resolve_left hji))
    · intro j l b hj hl
      by_cases hji : j = i <;> by_cases hli : l = i
      · exact hji.trans hli.symm
      · obtain rfl := hji
        exact absurd (hslot b hj) (s.apart l k b ((held l b hl).resolve_left hli))
      · obtain rfl := hli
        exact absurd (hslot b hl) (s.apart j k b ((held j b hj).resolve_left hji))
      · exact s.one_holder j l b ((held j b hj).resolve_left hji) ((held l b hl).resolve_left hli)
    · intro j l b hj hl
      by_cases hji : j = i
      · obtain rfl := hji
        obtain rfl := s.one_slot l k b (stored l b hl) (hslot b hj)
        rw [empty] at hl
        cases hl
      · exact s.apart j l b ((held j b hj).resolve_left hji) (stored l b hl)

end Custody

end CsmProxy.Foundations
