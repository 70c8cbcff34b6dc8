import CsmProxy.Instances.NeverDrop

/-!
# The inbound queue as a bounded fifo

What one push does to a queue (`PushLoses`) and what a whole run of pushes and
receives leaves of the messages that were pushed (`boundedFifo`). Both hold for every
capacity, zero included, and are read off the evicting queue that the inbound queue
is an instance of.
-/

namespace CsmProxy

open Foundations

/-- `PushLoses items msg lost items'`: a push of `msg` at the full queue `items` loses
`lost` and leaves `items'`. -/
inductive PushLoses (items : List SimToServer) (msg : SimToServer) :
    SimToServer → List SimToServer → Prop
  /-- The incoming message, when it is a heartbeat or nobody may be evicted. -/
  | incoming (h : isHeartbeat msg = true ∨ ∀ resident ∈ items, isNeverDrop resident = true) :
    PushLoses items msg msg items
  /-- The oldest resident of the highest eviction rank, which is positive. -/
  | resident (before after : List SimToServer) (victim : SimToServer)
    (split : items = before ++ victim :: after)
    (positive : 0 < evictionRank victim)
    (highest : ∀ other ∈ items, evictionRank other ≤ evictionRank victim)
    (oldest : ∀ older ∈ before, evictionRank older < evictionRank victim) :
    PushLoses items msg victim (before ++ after ++ [msg])

/-- Nothing else is lost, and nothing is gained. -/
theorem PushLoses.perm {items items' : List SimToServer} {msg lost : SimToServer}
    (h : PushLoses items msg lost items') : (lost :: items').Perm (items ++ [msg]) := by
  cases h with
  | incoming => exact (List.perm_append_singleton _ _).symm
  | resident before after _ split =>
    have hmiddle : (lost :: (before ++ after)).Perm items := split ▸ List.perm_middle.symm
    exact hmiddle.append_right [msg]

namespace InboundQueue

theorem items_push_room (q : InboundQueue) (msg : SimToServer)
    (h : q.items.length < q.cap.toNat) : (q.push msg).items = q.items ++ [msg] := by
  rw [q.items_push, EvictingQueue.push_of_length_lt _ _ h]

theorem push_loses (q : InboundQueue) (msg : SimToServer) (h : q.items.length = q.cap.toNat) :
    ∃ lost, PushLoses q.items msg lost (q.push msg).items := by
  rw [q.items_push]
  rcases EvictingQueue.push_full (p := evictionPolicy) msg h with ⟨hq, hkeep⟩ | ⟨victim, rest, hev, hq⟩
  · rw [hq]
    refine ⟨msg, .incoming (hkeep.imp_right fun hall resident hr => ?_)⟩
    exact (evictionRank_eq_zero_iff resident).mp (hall resident hr)
  · obtain ⟨before, after, hsplit, rfl, holdest⟩ := hev.split
    rw [hq]
    exact ⟨victim, .resident before after victim hsplit hev.positive hev.greatest holdest⟩

theorem neverDrop_prefix_push (q : InboundQueue) (msg : SimToServer) :
    q.items.filter isNeverDrop <+: (q.push msg).items.filter isNeverDrop := by
  rw [q.items_push, ← kept_eq_filter, ← kept_eq_filter]
  exact EvictingQueue.kept_prefix_push ..

theorem items_tryRecv (q : InboundQueue) :
    q.items = q.tryRecv.1.toList ++ q.tryRecv.2.items := by
  obtain ⟨items, cap, bounded⟩ := q
  cases items <;> rfl

end InboundQueue

theorem QueueRun.cap_run (s : QueueRun) (ops : List QueueOp) : (s.run ops).queue.cap = s.queue.cap := by
  induction ops generalizing s with
  | nil => rfl
  | cons op ops ih => exact (ih (s.step op)).trans (s.cap_step op)

/-- What holds of a queue of capacity `cap` after `pushed` were pushed, at every moment. -/
structure QueueRun.BoundedFifo (cap : UInt64) (pushed : List SimToServer) (s : QueueRun) : Prop where
  length_le : s.queue.items.length ≤ cap.toNat
  /-- The messages popped, then those queued, are a subsequence of those pushed. -/
  order : s.out.Sublist pushed
  /-- Receiving takes the head and loses nothing. -/
  receive : s.queue.items = s.queue.tryRecv.1.toList ++ s.queue.tryRecv.2.items
  /-- Below the capacity a push loses nothing. -/
  room : ∀ msg, s.queue.items.length < cap.toNat → (s.queue.push msg).items = s.queue.items ++ [msg]
  /-- At the capacity a push loses exactly one message. -/
  full : ∀ msg, s.queue.items.length = cap.toNat →
    ∃ lost, PushLoses s.queue.items msg lost (s.queue.push msg).items ∧
      (lost :: (s.queue.push msg).items).Perm (s.queue.items ++ [msg])
  /-- No push makes a resident never-drop message leave. -/
  neverDrop : ∀ msg,
    s.queue.items.filter isNeverDrop <+: (s.queue.push msg).items.filter isNeverDrop

/-- **The inbound queue is a bounded fifo with a fixed victim rule.** -/
theorem boundedFifo (cap : UInt64) (ops : List QueueOp) :
    ((QueueRun.start cap).run ops).BoundedFifo cap (pushedMessages ops) := by
  have hcap : ((QueueRun.start cap).run ops).queue.cap = cap := (QueueRun.start cap).cap_run ops
  have horder : ((QueueRun.start cap).run ops).toAccount.all.Sublist (pushedMessages ops) := by
    rw [QueueRun.toAccount_run, ← pushedMessages_eq]
    exact EvictingQueue.Account.all_run_sublist ..
  generalize (QueueRun.start cap).run ops = s at hcap horder ⊢
  subst hcap
  refine ⟨s.queue.bounded, horder, s.queue.items_tryRecv, s.queue.items_push_room, ?_,
    s.queue.neverDrop_prefix_push⟩
  intro msg hfull
  obtain ⟨lost, hlost⟩ := s.queue.push_loses msg hfull
  exact ⟨lost, hlost, hlost.perm⟩

end CsmProxy
