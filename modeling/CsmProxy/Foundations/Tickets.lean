import Mathlib.Data.List.Basic
import Mathlib.Logic.Function.Basic

/-!
# Numbers that are handed out once

A counter hands out the numbers `1`, `2`, and so on. Each of any number of holders holds one
number at most; it spends the number, or loses it. Then no two holders hold one number, a
number that is held is not spent, and no number is spent twice (`Tickets.Sound`).
-/

namespace CsmProxy.Foundations

/-- What has been drawn, what is held by whom, and what is spent, the newest first. -/
structure Tickets (ι : Type) where
  drawn : Nat := 0
  held : ι → Option Nat := fun _ => none
  spent : List Nat := []

namespace Tickets

variable {ι : Type}

/-- Every number is in one place. -/
structure Sound (T : Tickets ι) : Prop where
  held_le : ∀ i n, T.held i = some n → 0 < n ∧ n ≤ T.drawn
  spent_le : ∀ n ∈ T.spent, 0 < n ∧ n ≤ T.drawn
  one_holder : ∀ i j n, T.held i = some n → T.held j = some n → i = j
  unspent : ∀ i n, T.held i = some n → n ∉ T.spent
  nodup : T.spent.Nodup

/-- What the holder holds changes. -/
def setHeld [DecidableEq ι] (T : Tickets ι) (i : ι) (n : Option Nat) : Tickets ι :=
  { T with held := Function.update T.held i n }

/-- The holder draws the next number. -/
def draw [DecidableEq ι] (T : Tickets ι) (i : ι) : Tickets ι :=
  { T.setHeld i (some (T.drawn + 1)) with drawn := T.drawn + 1 }

/-- The holder spends its number. -/
def spend [DecidableEq ι] (T : Tickets ι) (i : ι) (n : Nat) : Tickets ι :=
  { T.setHeld i none with spent := n :: T.spent }

namespace Sound

theorem initial : Sound ({} : Tickets ι) where
  held_le _ _ h := by cases h
  spent_le _ h := by cases h
  one_holder _ _ _ h := by cases h
  unspent _ _ h := by cases h
  nodup := List.nodup_nil

variable {T : Tickets ι} [DecidableEq ι] {i : ι}

theorem held_of_update {i j : ι} {n : Nat} {o : Option Nat}
    (h : Function.update T.held i o j = some n) :
    (j = i ∧ o = some n) ∨ (j ≠ i ∧ T.held j = some n) := by
  by_cases hj : j = i
  · subst hj
    rw [Function.update_self] at h
    exact .inl ⟨rfl, h⟩
  · rw [Function.update_of_ne hj] at h
    exact .inr ⟨hj, h⟩

/-- A holder loses its number. -/
theorem lose (s : Sound T) (i : ι) : Sound (T.setHeld i none) where
  held_le j n h := by
    rcases held_of_update h with ⟨-, h⟩ | ⟨-, h⟩
    · cases h
    · exact s.held_le j n h
  spent_le := s.spent_le
  one_holder j k n hj hk := by
    rcases held_of_update hj with ⟨-, hj⟩ | ⟨-, hj⟩
    · cases hj
    rcases held_of_update hk with ⟨-, hk⟩ | ⟨-, hk⟩
    · cases hk
    exact s.one_holder j k n hj hk
  unspent j n h := by
    rcases held_of_update h with ⟨-, h⟩ | ⟨-, h⟩
    · cases h
    · exact s.unspent j n h
  nodup := s.nodup

theorem draw (s : Sound T) (i : ι) : Sound (T.draw i) where
  held_le j n h := by
    rcases held_of_update h with ⟨-, h⟩ | ⟨-, h⟩
    · cases h
      exact ⟨Nat.succ_pos _, Nat.le_refl _⟩
    · obtain ⟨hpos, hle⟩ := s.held_le j n h
      exact ⟨hpos, Nat.le_succ_of_le hle⟩
  spent_le n h := by
    obtain ⟨hpos, hle⟩ := s.spent_le n h
    exact ⟨hpos, Nat.le_succ_of_le hle⟩
  one_holder j k n hj hk := by
    -- an older number is below the new one
    rcases held_of_update hj with ⟨hji, hnew⟩ | ⟨-, hold⟩ <;>
      rcases held_of_update hk with ⟨hki, hnew'⟩ | ⟨-, hold'⟩
    · exact hji.trans hki.symm
    · cases hnew
      exact absurd (s.held_le k _ hold').2 (Nat.not_succ_le_self _)
    · cases hnew'
      exact absurd (s.held_le j _ hold).2 (Nat.not_succ_le_self _)
    · exact s.one_holder j k n hold hold'
  unspent j n h := by
    rcases held_of_update h with ⟨-, h⟩ | ⟨-, h⟩
    · cases h
      exact fun hmem => absurd (s.spent_le _ hmem).2 (Nat.not_succ_le_self _)
    · exact s.unspent j n h
  nodup := s.nodup

theorem spend (s : Sound T) {n : Nat} (hi : T.held i = some n) : Sound (T.spend i n) where
  held_le := (s.lose i).held_le
  spent_le m hm := by
    rcases List.mem_cons.mp hm with rfl | hm
    · exact s.held_le i m hi
    · exact s.spent_le m hm
  one_holder := (s.lose i).one_holder
  unspent j m hj hm := by
    rcases held_of_update hj with ⟨-, h⟩ | ⟨hne, h⟩
    · cases h
    rcases List.mem_cons.mp hm with rfl | hm
    · exact hne (s.one_holder j i m h hi)
    · exact s.unspent j m h hm
  nodup := List.nodup_cons.mpr ⟨s.unspent i n hi, s.nodup⟩

end Sound

end Tickets

end CsmProxy.Foundations
