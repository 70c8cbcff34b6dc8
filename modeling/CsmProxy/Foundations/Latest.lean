import Mathlib.Data.List.Induction

/-!
# The latest value of a log

Some entries of a log carry a value. `Latest f log m b` says that entry `m` carries the
value `b` and that no entry behind it carries any. As a log grows the latest value moves
on and never back (`Latest.mono`).
-/

namespace CsmProxy.Foundations

variable {α β : Type} {f : α → Option β} {log log' : List α} {m m' : Nat} {b b' : β}

/-- Entry `m` is the last one that carries a value, and the value is `b`. -/
structure Latest (f : α → Option β) (log : List α) (m : Nat) (b : β) : Prop where
  carries : log[m]?.bind f = some b
  last : ∀ n, log[n]?.bind f ≠ none → n ≤ m

theorem carries_of_grown (h : log <+: log') {n : Nat} (hn : log[n]?.bind f ≠ none) :
    log'[n]?.bind f = log[n]?.bind f := by
  obtain ⟨rest, rfl⟩ := h
  cases hl : log[n]? with
  | none => exact absurd (by rw [hl]; rfl) hn
  | some a =>
    have hlt : n < log.length := (List.getElem?_eq_some_iff.mp hl).1
    rw [List.getElem?_append_left hlt, hl]

theorem bind_concat {a : α} {n : Nat} :
    (log ++ [a])[n]?.bind f = if n = log.length then f a else log[n]?.bind f := by
  rcases Nat.lt_trichotomy n log.length with hlt | rfl | hgt
  · rw [if_neg (Nat.ne_of_lt hlt), List.getElem?_append_left hlt]
  · rw [if_pos rfl, List.getElem?_concat_length, Option.bind_some]
  · have hlen : (log ++ [a]).length ≤ n := by
      rw [List.length_append, List.length_singleton]
      omega
    have hle : log.length ≤ n := Nat.le_of_lt hgt
    rw [if_neg (Nat.ne_of_gt hgt), List.getElem?_eq_none hlen, List.getElem?_eq_none hle]

namespace Latest

/-- No entry that carries a value is behind the latest one of a longer log. -/
theorem le_of_grown (h' : Latest f log' m' b') (hp : log <+: log') {n : Nat}
    (hn : log[n]?.bind f ≠ none) : n ≤ m' := by
  apply h'.last
  rw [carries_of_grown hp hn]
  exact hn

/-- As the log grows, the latest value moves on. -/
theorem mono (h : Latest f log m b) (h' : Latest f log' m' b') (hp : log <+: log') : m ≤ m' := by
  apply h'.le_of_grown hp
  rw [h.carries]
  exact Option.some_ne_none b

theorem unique (h : Latest f log m b) (h' : Latest f log m' b') : m = m' ∧ b = b' := by
  have heq : m = m' :=
    Nat.le_antisymm (h.mono h' (List.prefix_refl log)) (h'.mono h (List.prefix_refl log))
  subst heq
  exact ⟨rfl, Option.some.inj (h.carries.symm.trans h'.carries)⟩

theorem concat {a : α} (ha : f a = some b) : Latest f (log ++ [a]) log.length b := by
  refine ⟨?_, fun n hn => ?_⟩
  · rw [bind_concat, if_pos rfl, ha]
  · by_contra hgt
    have hnone : log[n]? = none := List.getElem?_eq_none (by omega)
    rw [bind_concat, if_neg (by omega), hnone] at hn
    exact hn rfl

/-- An entry without a value changes nothing. -/
theorem concat_none_iff {a : α} (ha : f a = none) :
    Latest f (log ++ [a]) m b ↔ Latest f log m b := by
  have hbind : ∀ n : Nat, (log ++ [a])[n]?.bind f = log[n]?.bind f := by
    intro n
    rw [bind_concat]
    split
    · rename_i hn
      have hnone : log[n]? = none := List.getElem?_eq_none (by omega)
      rw [ha, hnone, Option.bind_none]
    · rfl
  constructor
  · rintro ⟨hcarries, hlast⟩
    exact ⟨hbind m ▸ hcarries, fun n hn => hlast n (hbind n ▸ hn)⟩
  · rintro ⟨hcarries, hlast⟩
    exact ⟨(hbind m).trans hcarries, fun n hn => hlast n (hbind n ▸ hn)⟩

end Latest

/-- The latest value of a log is the last of its values. -/
theorem exists_latest_iff : (∃ m, Latest f log m b) ↔ (log.filterMap f).getLast? = some b := by
  induction log using List.reverseRecOn with
  | nil =>
    constructor
    · rintro ⟨m, h⟩
      cases h.carries
    · intro h
      cases h
  | append_singleton log a ih =>
    rw [List.filterMap_append]
    cases ha : f a with
    | none =>
      have hnil : [a].filterMap f = [] := by rw [List.filterMap_cons_none ha, List.filterMap_nil]
      rw [hnil, List.append_nil, ← ih]
      exact exists_congr fun m => Latest.concat_none_iff ha
    | some b₁ =>
      have hone : [a].filterMap f = [b₁] := by rw [List.filterMap_cons_some ha, List.filterMap_nil]
      rw [hone, List.getLast?_concat, Option.some_inj]
      constructor
      · rintro ⟨m, h⟩
        exact ((Latest.concat ha).unique h).2
      · rintro rfl
        exact ⟨log.length, Latest.concat ha⟩

/-- Behind an entry that carries a value, or at it, is the latest one. -/
theorem exists_latest_of_carries {n : Nat} (hn : log[n]?.bind f ≠ none) :
    ∃ m b, Latest f log m b ∧ n ≤ m := by
  obtain ⟨b, hb⟩ := Option.ne_none_iff_exists'.mp hn
  obtain ⟨a, ha, hf⟩ := Option.bind_eq_some_iff.mp hb
  have hmem : b ∈ log.filterMap f := List.mem_filterMap.mpr ⟨a, List.mem_of_getElem? ha, hf⟩
  have hne : log.filterMap f ≠ [] := List.ne_nil_of_mem hmem
  obtain ⟨m, hm⟩ := exists_latest_iff.mpr (List.getLast?_eq_some_getLast hne)
  exact ⟨m, _, hm, hm.last n hn⟩

end CsmProxy.Foundations
