import Mathlib.Data.List.Basic

/-!
# First in, first out

A log of what was put on channels and what was taken from them, the newest event first.
`Fifo log holds` relates the log to what the open channels hold: on every channel what was
taken is the beginning of what was put there, and an open channel holds the rest. A channel
that is closed loses what it held. The lemmas are the rules of one step.
-/

namespace CsmProxy.Foundations

variable {κ α : Type} [DecidableEq κ]

/-- A message is put on a channel or taken from it. -/
inductive ChannelEvent (κ α : Type) where
  | put (channel : κ) (a : α)
  | take (channel : κ) (a : α)
deriving DecidableEq

/-- What was put on the channel, the oldest first. -/
def puts (k : κ) : List (ChannelEvent κ α) → List α
  | [] => []
  | .put k' a :: log => if k' = k then puts k log ++ [a] else puts k log
  | .take .. :: log => puts k log

/-- What was taken from the channel, the oldest first. -/
def takes (k : κ) : List (ChannelEvent κ α) → List α
  | [] => []
  | .take k' a :: log => if k' = k then takes k log ++ [a] else takes k log
  | .put .. :: log => takes k log

theorem puts_put_self (k : κ) (a : α) (log : List (ChannelEvent κ α)) :
    puts k (.put k a :: log) = puts k log ++ [a] := if_pos rfl

theorem puts_put_of_ne {k k' : κ} (h : k' ≠ k) (a : α) (log : List (ChannelEvent κ α)) :
    puts k (.put k' a :: log) = puts k log := if_neg h

theorem takes_take_self (k : κ) (a : α) (log : List (ChannelEvent κ α)) :
    takes k (.take k a :: log) = takes k log ++ [a] := if_pos rfl

theorem takes_take_of_ne {k k' : κ} (h : k' ≠ k) (a : α) (log : List (ChannelEvent κ α)) :
    takes k (.take k' a :: log) = takes k log := if_neg h

theorem mem_puts {k : κ} {a : α} {log : List (ChannelEvent κ α)} (h : a ∈ puts k log) :
    .put k a ∈ log := by
  induction log with
  | nil => cases h
  | cons e log ih =>
    cases e with
    | put k' b =>
      simp only [puts] at h
      split at h
      · rename_i hk
        subst hk
        rcases List.mem_append.mp h with hold | hnew
        · exact List.mem_cons_of_mem _ (ih hold)
        · rw [List.mem_singleton.mp hnew]
          exact List.mem_cons_self
      · exact List.mem_cons_of_mem _ (ih h)
    | take k' b => exact List.mem_cons_of_mem _ (ih h)

/-- The open channels hold what was put on them and not taken, in order. -/
structure Fifo (log : List (ChannelEvent κ α)) (holds : κ → List α → Prop) : Prop where
  order : ∀ k, takes k log <+: puts k log
  content : ∀ k q, holds k q → puts k log = takes k log ++ q

namespace Fifo

variable {log : List (ChannelEvent κ α)} {holds holds' : κ → List α → Prop}

theorem initial (h : ∀ k q, ¬ holds k q) : Fifo ([] : List (ChannelEvent κ α)) holds :=
  ⟨fun _ => List.prefix_refl _, fun k q hq => absurd hq (h k q)⟩

/-- Channels may be closed, and a channel on which nothing was put may be opened. -/
theorem change (fifo : Fifo log holds)
    (h : ∀ k q, holds' k q → holds k q ∨ (q = [] ∧ puts k log = [])) : Fifo log holds' := by
  refine ⟨fifo.order, fun k q hq => ?_⟩
  rcases h k q hq with hold | ⟨rfl, hnew⟩
  · exact fifo.content k q hold
  · have htakes : takes k log = [] := List.prefix_nil.mp (hnew ▸ fifo.order k)
    rw [hnew, htakes, List.append_nil]

theorem put (fifo : Fifo log holds) {k : κ} {q : List α} (a : α) (hk : holds k q)
    (h : ∀ k' q', holds' k' q' → (k' = k ∧ q' = q ++ [a]) ∨ (k' ≠ k ∧ holds k' q')) :
    Fifo (.put k a :: log) holds' := by
  refine ⟨fun k' => ?_, fun k' q' hq' => ?_⟩
  · change takes k' log <+: _
    by_cases hkk : k = k'
    · subst hkk
      rw [puts_put_self]
      exact (fifo.order k).trans (List.prefix_append _ _)
    · rw [puts_put_of_ne hkk]
      exact fifo.order k'
  · change _ = takes k' log ++ q'
    rcases h k' q' hq' with ⟨rfl, rfl⟩ | ⟨hne, hold⟩
    · rw [puts_put_self, fifo.content _ q hk, List.append_assoc]
    · rw [puts_put_of_ne hne.symm]
      exact fifo.content k' q' hold

theorem take (fifo : Fifo log holds) {k : κ} {q : List α} {a : α} (hk : holds k (a :: q))
    (h : ∀ k' q', holds' k' q' → (k' = k ∧ q' = q) ∨ (k' ≠ k ∧ holds k' q')) :
    Fifo (.take k a :: log) holds' := by
  have hcontent := fifo.content k _ hk
  refine ⟨fun k' => ?_, fun k' q' hq' => ?_⟩
  · change _ <+: puts k' log
    by_cases hkk : k = k'
    · subst hkk
      rw [takes_take_self, hcontent]
      exact List.prefix_append_right_inj _ |>.mpr (List.prefix_append [a] q)
    · rw [takes_take_of_ne hkk]
      exact fifo.order k'
  · change puts k' log = _
    rcases h k' q' hq' with ⟨rfl, rfl⟩ | ⟨hne, hold⟩
    · rw [takes_take_self, hcontent, List.append_cons]
    · rw [takes_take_of_ne hne.symm]
      exact fifo.content k' q' hold

end Fifo

end CsmProxy.Foundations
