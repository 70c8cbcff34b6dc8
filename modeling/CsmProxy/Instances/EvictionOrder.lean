import CsmProxy.Instances.BoundedFifo

/-!
# The order of eviction

A full queue makes room by the rank of its residents: heartbeats first, then `MEM` and
`SCT` logs, then other logs, then the rest. The incoming message is not ranked, unless
it is a heartbeat: a `MEM` log evicts an `InputObserved` from a queue without logs.
`respectsPriority_iff` says when the message that is lost is one of the highest rank.
-/

namespace CsmProxy

open Foundations

/-- A push of `msg` loses one message, and none of those that remain ranks higher. -/
def RespectsPriority (q : InboundQueue) (msg : SimToServer) : Prop :=
  ∃ lost, (lost :: (q.push msg).items).Perm (q.items ++ [msg]) ∧
    ∀ kept ∈ (q.push msg).items, evictionRank kept ≤ evictionRank lost

theorem evictionRank_le_heartbeat {msg : SimToServer} (h : isHeartbeat msg = true)
    (other : SimToServer) : evictionRank other ≤ evictionRank msg := by
  have hle : evictionRank other ≤ 4 := by
    unfold evictionRank
    split
    · exact le_refl 4
    · split
      · decide
      · split <;> decide
    · split <;> decide
  have hmsg : evictionRank msg = 4 := by
    unfold isHeartbeat at h
    unfold evictionRank
    split at h
    · rename_i hpayload
      rw [hpayload]
    · cases h
  omega

namespace InboundQueue

variable {q : InboundQueue} {msg : SimToServer}

theorem items_push_heartbeat (hfull : q.items.length = q.cap.toNat)
    (h : isHeartbeat msg = true) : (q.push msg).items = q.items := by
  rw [q.items_push, EvictingQueue.push, if_pos hfull]
  exact if_pos h

/-- The incoming message is lost: it must not rank below a resident. -/
theorem respectsPriority_of_items (h : (q.push msg).items = q.items)
    (hrank : ∀ resident ∈ q.items, evictionRank resident ≤ evictionRank msg) :
    RespectsPriority q msg := by
  refine ⟨msg, ?_, fun kept hkept => ?_⟩
  · rw [h]
    exact (List.perm_append_singleton _ _).symm
  · rw [h] at hkept
    exact hrank kept hkept

/-- A resident is lost: the incoming message must not rank above it. -/
theorem respectsPriority_of_victim {victim : SimToServer} {rest : List SimToServer}
    (hitems : (q.push msg).items = rest ++ [msg]) (hperm : (victim :: rest).Perm q.items)
    (hrank : ∀ resident ∈ q.items, evictionRank resident ≤ evictionRank victim) :
    RespectsPriority q msg ↔ evictionRank msg ≤ evictionRank victim := by
  have hlost : (victim :: (rest ++ [msg])).Perm (q.items ++ [msg]) := hperm.append_right [msg]
  constructor
  · rintro ⟨lost, hlost', hkept⟩
    rw [hitems] at hlost' hkept
    have hsame : lost = victim := by
      have hboth : [lost].Perm [victim] := by
        apply (List.perm_append_right_iff (rest ++ [msg])).mp
        exact hlost'.trans hlost.symm
      exact List.singleton_perm_singleton.mp hboth
    rw [← hsame]
    exact hkept msg (List.mem_append_right rest List.mem_cons_self)
  · intro hmsg
    refine ⟨victim, by rw [hitems]; exact hlost, fun kept hkept => ?_⟩
    rw [hitems] at hkept
    rcases List.mem_append.mp hkept with hold | hnew
    · exact hrank kept (hperm.subset (List.mem_cons_of_mem victim hold))
    · obtain rfl := List.mem_singleton.mp hnew
      exact hmsg

end InboundQueue

/-- **Eviction priority.** A push at a full queue loses a message of the highest rank if and
only if it brings a heartbeat, or nobody in the queue may be evicted, or somebody there
ranks as high as the message it brings. -/
theorem respectsPriority_iff (q : InboundQueue) (msg : SimToServer)
    (hfull : q.items.length = q.cap.toNat) :
    RespectsPriority q msg ↔ isHeartbeat msg = true ∨
      (∀ resident ∈ q.items, isNeverDrop resident = true) ∨
      ∃ resident ∈ q.items, evictionRank msg ≤ evictionRank resident := by
  by_cases hhb : isHeartbeat msg = true
  · refine iff_of_true ?_ (.inl hhb)
    exact InboundQueue.respectsPriority_of_items (InboundQueue.items_push_heartbeat hfull hhb)
      fun resident _ => evictionRank_le_heartbeat hhb resident
  · rw [or_iff_right hhb]
    obtain ⟨lost, hlost⟩ := q.push_loses msg hfull
    generalize hitems : (q.push msg).items = items' at hlost
    cases hlost with
    | incoming hnone =>
      have hkeep : ∀ resident ∈ q.items, isNeverDrop resident = true := by
        rcases hnone with h | h
        · exact absurd h hhb
        · exact h
      refine iff_of_true ?_ (.inl hkeep)
      refine InboundQueue.respectsPriority_of_items hitems fun resident hmem => ?_
      rw [(evictionRank_eq_zero_iff resident).mpr (hkeep resident hmem)]
      exact Nat.zero_le _
    | resident before after victim split positive highest oldest =>
      have hmem : lost ∈ q.items := by
        rw [split]
        exact List.mem_append_right before List.mem_cons_self
      have hperm : (lost :: (before ++ after)).Perm q.items := split ▸ List.perm_middle.symm
      rw [InboundQueue.respectsPriority_of_victim hitems hperm highest]
      constructor
      · intro h
        exact .inr ⟨lost, hmem, h⟩
      · rintro (hkeep | ⟨resident, hresident, h⟩)
        · have hzero := (evictionRank_eq_zero_iff lost).mpr (hkeep lost hmem)
          omega
        · exact h.trans (highest resident hresident)

/-- A queue with room for one message, which holds `msg`. -/
def queueOf (msg : SimToServer) : InboundQueue where
  items := [msg]
  cap := 1
  bounded := by
    rw [List.length_singleton]
    decide

def observedEdge : SimToServer := { payload := some (.inputObserved {}) }

def logOf (component : String) : SimToServer := { payload := some (.log { component := component }) }

/-- Among logs the `MEM` log goes first. -/
theorem respectsPriority_log : RespectsPriority (queueOf (logOf "MEM")) (logOf "GFX") :=
  (respectsPriority_iff _ _ (by decide)).mpr (by decide)

/-- A `MEM` log evicts an `InputObserved`. -/
theorem not_respectsPriority_mem :
    ¬ ∀ q msg, q.items.length = q.cap.toNat → RespectsPriority q msg := by
  intro hall
  have hpush := hall (queueOf observedEdge) (logOf "MEM") (by decide)
  have hitems : ((queueOf observedEdge).push (logOf "MEM")).items = [] ++ [logOf "MEM"] := by
    decide
  have hrank : ∀ resident ∈ (queueOf observedEdge).items,
      evictionRank resident ≤ evictionRank observedEdge := by decide
  have hle := (InboundQueue.respectsPriority_of_victim hitems (.refl _) hrank).mp hpush
  exact absurd hle (by decide)

end CsmProxy
