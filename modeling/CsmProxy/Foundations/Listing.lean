import CsmProxy.Foundations.HashMap
import Mathlib.Data.List.Sort
import Mathlib.Order.Defs.LinearOrder

/-!
# Listing a table

A hash table is iterated in any order. Sorted by keys that do not repeat, what was listed does
not depend on that order (`sortByKey_unique`).
-/

namespace CsmProxy.Foundations

section Sorting

variable {α κ : Type} [LinearOrder κ]

/-- The stable sort by a key. -/
def sortByKey (key : α → κ) (l : List α) : List α := l.mergeSort fun a b => decide (key a ≤ key b)

variable {key : α → κ} {l l' : List α}

theorem sortByKey_perm (key : α → κ) (l : List α) : (sortByKey key l).Perm l :=
  List.mergeSort_perm l _

theorem mem_sortByKey {a : α} : a ∈ sortByKey key l ↔ a ∈ l := (sortByKey_perm key l).mem_iff

theorem sortByKey_sorted (key : α → κ) (l : List α) :
    (sortByKey key l).Pairwise fun a b => key a ≤ key b := by
  refine (List.pairwise_mergeSort ?_ ?_ l).imp of_decide_eq_true
  · intro a b c hab hbc
    exact decide_eq_true ((of_decide_eq_true hab).trans (of_decide_eq_true hbc))
  · intro a b
    rw [Bool.or_eq_true, decide_eq_true_iff, decide_eq_true_iff]
    exact le_total _ _

/-- Keys that do not repeat are in ascending order. -/
theorem sortByKey_strict (h : (l.map key).Nodup) :
    ((sortByKey key l).map key).Pairwise (· < ·) := by
  have hnodup : ((sortByKey key l).map key).Nodup := ((sortByKey_perm key l).map key).nodup_iff.mpr h
  have hsorted : ((sortByKey key l).map key).Pairwise (· ≤ ·) :=
    List.pairwise_map.mpr (sortByKey_sorted key l)
  exact hsorted.imp₂ (fun _ _ hle hne => lt_of_le_of_ne hle hne) hnodup

theorem sortByKey_unique (hperm : l.Perm l') (h : (l.map key).Nodup) :
    sortByKey key l = sortByKey key l' := by
  refine List.Perm.eq_of_pairwise ?_ (sortByKey_sorted key l) (sortByKey_sorted key l')
    (((sortByKey_perm key l).trans hperm).trans (sortByKey_perm key l').symm)
  intro a b ha hb hab hba
  have hb : b ∈ l := hperm.mem_iff.mpr (mem_sortByKey.mp hb)
  exact List.inj_on_of_nodup_map h (mem_sortByKey.mp ha) hb (le_antisymm hab hba)

end Sorting

/-! ## Tables -/

namespace HashMap

variable {κ ν : Type} [DecidableEq κ]

/-- The keys of the table, each once, in some order. -/
structure Lists (m : HashMap κ ν) (order : List κ) : Prop where
  nodup : order.Nodup
  mem : ∀ k, k ∈ order ↔ ∃ v, m.lookup k = some v

theorem Lists.perm {m : HashMap κ ν} {order order' : List κ} (h : m.Lists order)
    (h' : m.Lists order') : order.Perm order' :=
  (List.perm_ext_iff_of_nodup h.nodup h'.nodup).mpr fun k => (h.mem k).trans (h'.mem k).symm

theorem Lists.of_keys {m : HashMap κ ν} {order : List κ} (hnodup : order.Nodup)
    (h : m.keys = order.toFinset) : m.Lists order where
  nodup := hnodup
  mem k := by rw [← mem_keys_iff, h, List.mem_toFinset]

end HashMap

end CsmProxy.Foundations
