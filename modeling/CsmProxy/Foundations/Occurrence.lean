import Mathlib.Data.List.Infix

/-!
# Occurrences of a word

A word whose first letter does not come back in it does not overlap itself, so two
occurrences of it in one text lie apart. A run of letters is cut off by the first
other character, in one way only.
-/

namespace CsmProxy

variable {α : Type _}

/-! ## Words that do not overlap themselves -/

/-- The first letter of the word does not come back. -/
def Unrepeated : List α → Prop
  | [] => False
  | x :: w => x ∉ w

namespace Unrepeated

variable {w : List α}

/-- An occurrence of `w` behind one at the start begins there or after it. -/
theorem second_occurrence (hw : Unrepeated w) {c r t : List α}
    (h : w ++ r = c ++ (w ++ t)) : c = [] ∨ ∃ d, r = d ++ (w ++ t) ∧ c = w ++ d := by
  rcases List.append_eq_append_iff.mp h with ⟨d, hc, hr⟩ | ⟨d, hwc, ht⟩
  · exact .inr ⟨d, hr, hc⟩
  · cases c with
    | nil => exact .inl rfl
    | cons x c =>
      right
      cases d with
      | nil =>
        rw [List.append_nil] at hwc
        exact ⟨[], by simpa using ht.symm, by rw [List.append_nil, hwc]⟩
      | cons y d =>
        -- the second occurrence would begin with `x` inside the first
        subst hwc
        have hxy : x = y := by simpa using congrArg List.head? ht
        have hx : x ∉ c ++ y :: d := hw
        exact absurd (by simp [hxy]) hx

/-- An occurrence of `w` is the first one or lies after it. -/
theorem occurrence (hw : Unrepeated w) {p t a r : List α} (hp : ¬ w <:+: p)
    (h : a ++ (w ++ r) = p ++ (w ++ t)) : r = t ∨ ∃ d, t = d ++ (w ++ r) := by
  rcases List.append_eq_append_iff.mp h with ⟨c, hpc, hr⟩ | ⟨c, -, ht⟩
  · rcases hw.second_occurrence hr with rfl | ⟨d, -, rfl⟩
    · exact .inl (List.append_cancel_left hr)
    · exact absurd (hpc ▸ List.infix_append' a w d) hp
  · rcases hw.second_occurrence ht with rfl | ⟨d, hd, -⟩
    · exact .inl (List.append_cancel_left ht).symm
    · exact .inr ⟨d, hd⟩

end Unrepeated

/-! ## Runs of letters -/

section Runs

variable {letter : α → Bool}

/-- The text is empty or starts with no letter. -/
def Stops (letter : α → Bool) (s : List α) : Prop := ∀ c ∈ s.head?, letter c = false

theorem Stops.takeWhile {s : List α} (hs : Stops letter s) : s.takeWhile letter = [] := by
  cases s with
  | nil => rfl
  | cons c s => rw [List.takeWhile_cons, hs c rfl]; rfl

theorem Stops.mono {s t : List α} (hs : Stops letter s) (h : t <+: s) : Stops letter t := by
  intro c hc
  obtain ⟨r, rfl⟩ := h
  apply hs
  rw [List.head?_append, Option.mem_def.mp hc]
  rfl

theorem takeWhile_run {u s : List α} (hu : ∀ c ∈ u, letter c) (hs : Stops letter s) :
    (u ++ s).takeWhile letter = u := by
  rw [List.takeWhile_append_of_pos hu, hs.takeWhile, List.append_nil]

theorem run_unique {u v s t : List α} (hu : ∀ c ∈ u, letter c) (hv : ∀ c ∈ v, letter c)
    (hs : Stops letter s) (ht : Stops letter t) (h : u ++ s = v ++ t) : u = v ∧ s = t := by
  have huv : u = v := by rw [← takeWhile_run hu hs, h, takeWhile_run hv ht]
  subst huv
  exact ⟨rfl, List.append_cancel_left h⟩

theorem initial_run {u v s b : List α} (hu : ∀ c ∈ u, letter c) (hv : ∀ c ∈ v, letter c)
    (hs : Stops letter s) (h : v ++ b = u ++ s) : v <+: u := by
  refine ⟨b.takeWhile letter, ?_⟩
  rw [← List.takeWhile_append_of_pos hv, h, takeWhile_run hu hs]

end Runs

end CsmProxy
