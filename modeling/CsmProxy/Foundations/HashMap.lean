import Mathlib.Data.Finmap

/-!
# Finite maps with one value type

A finite map whose values do not depend on the key, with the lookup laws in the
form the proofs use them: every operation rewrites `lookup` to an `if`, so that
one `simp only [lookup_insert_ite, …]` and a case split settle a frame fact.
`modify` is the update through `get_mut`: it changes the stored value when there
is one and leaves the map alone otherwise.
-/

namespace CsmProxy.Foundations

/-- A finite map from `κ` to `ν`. -/
abbrev HashMap (κ ν : Type) := Finmap fun _ : κ => ν

namespace HashMap

variable {κ ν : Type} [DecidableEq κ]

theorem lookup_insert_ite (m : HashMap κ ν) (k k' : κ) (v : ν) :
    (m.insert k v).lookup k' = if k' = k then some v else m.lookup k' := by
  by_cases h : k' = k
  · subst h
    simp
  · rw [Finmap.lookup_insert_of_ne _ h, if_neg h]

theorem lookup_erase_ite (m : HashMap κ ν) (k k' : κ) :
    (m.erase k).lookup k' = if k' = k then none else m.lookup k' := by
  by_cases h : k' = k
  · subst h
    simp
  · rw [Finmap.lookup_erase_ne h, if_neg h]

theorem of_lookup_erase {m : HashMap κ ν} {k k' : κ} {v : ν}
    (h : (m.erase k).lookup k' = some v) : m.lookup k' = some v := by
  rw [lookup_erase_ite] at h
  split at h
  · cases h
  · exact h

theorem lookup_empty (k : κ) : (∅ : HashMap κ ν).lookup k = none := Finmap.lookup_empty k

/-- Apply `f` to the value stored under `k`, if there is one. -/
def modify (m : HashMap κ ν) (k : κ) (f : ν → ν) : HashMap κ ν :=
  match m.lookup k with
  | none => m
  | some v => m.insert k (f v)

theorem modify_of_none {m : HashMap κ ν} {k : κ} {f : ν → ν} (h : m.lookup k = none) :
    m.modify k f = m := by
  unfold modify
  rw [h]

theorem modify_of_some {m : HashMap κ ν} {k : κ} {f : ν → ν} {v : ν} (h : m.lookup k = some v) :
    m.modify k f = m.insert k (f v) := by
  unfold modify
  rw [h]

/-- Storing the value that is there changes nothing. -/
theorem insert_of_lookup {m : HashMap κ ν} {k : κ} {v : ν} (h : m.lookup k = some v) :
    m.insert k v = m := by
  refine Finmap.ext_lookup fun k' => ?_
  rw [lookup_insert_ite]
  split
  · rename_i hk
    rw [hk, h]
  · rfl

theorem lookup_modify (m : HashMap κ ν) (k k' : κ) (f : ν → ν) :
    (m.modify k f).lookup k' = if k' = k then (m.lookup k').map f else m.lookup k' := by
  unfold modify
  split
  · rename_i h
    by_cases hk : k' = k
    · subst hk
      rw [if_pos rfl, h, Option.map_none]
    · rw [if_neg hk]
  · rename_i v h
    rw [lookup_insert_ite]
    by_cases hk : k' = k
    · subst hk
      rw [if_pos rfl, if_pos rfl, h, Option.map_some]
    · rw [if_neg hk, if_neg hk]

theorem of_lookup_modify_self {m : HashMap κ ν} {k : κ} {f : ν → ν} {v' : ν}
    (h : (m.modify k f).lookup k = some v') : ∃ v, m.lookup k = some v ∧ f v = v' := by
  rw [lookup_modify, if_pos rfl] at h
  exact Option.map_eq_some_iff.mp h

/-- A value after `modify` is one before it, changed at most under the key. -/
theorem of_lookup_modify {m : HashMap κ ν} {k k' : κ} {f : ν → ν} {v' : ν}
    (h : (m.modify k f).lookup k' = some v') :
    ∃ v, m.lookup k' = some v ∧ (v' = v ∨ k' = k ∧ v' = f v) := by
  by_cases hk : k' = k
  · subst hk
    obtain ⟨v, hv, rfl⟩ := of_lookup_modify_self h
    exact ⟨v, hv, Or.inr ⟨rfl, rfl⟩⟩
  · rw [lookup_modify, if_neg hk] at h
    exact ⟨v', h, Or.inl rfl⟩

theorem mem_keys_iff {m : HashMap κ ν} {k : κ} : k ∈ m.keys ↔ ∃ v, m.lookup k = some v := by
  rw [Finmap.mem_keys, ← Finmap.lookup_isSome, Option.isSome_iff_exists]

/-- The keys whose stored value satisfies `p`. -/
def keysWhere (m : HashMap κ ν) (p : ν → Bool) : Finset κ :=
  m.keys.filter fun k => (m.lookup k).any p = true

theorem mem_keysWhere {m : HashMap κ ν} {p : ν → Bool} {k : κ} :
    k ∈ m.keysWhere p ↔ ∃ v, m.lookup k = some v ∧ p v = true := by
  unfold keysWhere
  rw [Finset.mem_filter, mem_keys_iff]
  constructor
  · rintro ⟨⟨v, hv⟩, hp⟩
    exact ⟨v, hv, by simpa [hv] using hp⟩
  · rintro ⟨v, hv, hp⟩
    exact ⟨⟨v, hv⟩, by simpa [hv] using hp⟩

end HashMap

end CsmProxy.Foundations
