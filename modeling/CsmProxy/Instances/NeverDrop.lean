import CsmProxy.Instances.InboundQueue

/-!
# What the inbound queue never drops

Runs of `push` and `try_recv` on one inbound queue. A never-drop message is lost in
exactly one way: it arrives when the queue is full and every queued message is
itself never-drop, where both remaining branches of `push` return without storing
it. `neverDropKept_iff` turns that into the exact condition on a run under which
all never-drop messages come out in the order they went in.
-/

namespace CsmProxy

open Foundations

/-- An operation on the inbound queue. -/
inductive QueueOp where
  | push (msg : SimToServer)
  | tryRecv
deriving DecidableEq

/-- The queue and the messages taken from it so far. -/
structure QueueRun where
  popped : List SimToServer
  queue : InboundQueue

namespace QueueRun

/-- Nothing popped from an empty queue. -/
def start (cap : UInt64) : QueueRun := ⟨[], .new cap⟩

/-- One operation. -/
def step (s : QueueRun) : QueueOp → QueueRun
  | .push msg => { s with queue := s.queue.push msg }
  | .tryRecv => ⟨s.popped ++ s.queue.tryRecv.1.toList, s.queue.tryRecv.2⟩

/-- A run of operations. -/
def run (s : QueueRun) (ops : List QueueOp) : QueueRun := ops.foldl step s

/-- The messages popped, then those still queued. -/
def out (s : QueueRun) : List SimToServer := s.popped ++ s.queue.items

end QueueRun

/-- The messages pushed by a run, in order. -/
def pushedMessages (ops : List QueueOp) : List SimToServer :=
  ops.flatMap fun
    | .push msg => [msg]
    | .tryRecv => []

/-- The guarantee: the never-drop messages popped and still queued are the
never-drop messages pushed, in push order. -/
def NeverDropKept (cap : UInt64) (ops : List QueueOp) : Prop :=
  ((QueueRun.start cap).run ops).out.filter isNeverDrop = (pushedMessages ops).filter isNeverDrop

instance (cap : UInt64) (ops : List QueueOp) : Decidable (NeverDropKept cap ops) :=
  inferInstanceAs (Decidable (_ = _))

/-- The queue is full and every queued message is never-drop. -/
def InboundQueue.FullOfNeverDrop (q : InboundQueue) : Prop :=
  q.items.length = q.cap.toNat ∧ ∀ msg ∈ q.items, isNeverDrop msg = true

/-! ## The run as an evicting queue -/

/-- The operation of the evicting queue that models `op`. -/
def QueueOp.toOp : QueueOp → EvictingQueue.Op SimToServer
  | .push msg => .push msg
  | .tryRecv => .pop

/-- The account of the evicting queue that models `s`. -/
def QueueRun.toAccount (s : QueueRun) : EvictingQueue.Account SimToServer := ⟨s.popped, s.queue.items⟩

theorem QueueRun.cap_step (s : QueueRun) (op : QueueOp) : (s.step op).queue.cap = s.queue.cap := by
  cases op <;> rfl

/-- Each operation of the queue is the operation of the evicting queue. -/
theorem QueueRun.toAccount_step (s : QueueRun) (op : QueueOp) :
    (s.step op).toAccount =
      s.toAccount.step evictionPolicy s.queue.cap.toNat op.toOp := by
  cases op with
  | push msg => simp only [step, toAccount, QueueOp.toOp, EvictingQueue.Account.step,
      InboundQueue.items_push]
  | tryRecv =>
    obtain ⟨popped, ⟨items, cap, bounded⟩⟩ := s
    cases items <;> rfl

theorem QueueRun.toAccount_run (s : QueueRun) (ops : List QueueOp) :
    (s.run ops).toAccount =
      s.toAccount.run evictionPolicy s.queue.cap.toNat (ops.map QueueOp.toOp) := by
  induction ops generalizing s with
  | nil => rfl
  | cons op ops ih =>
    have hrest := ih (s.step op)
    rw [cap_step, toAccount_step] at hrest
    exact hrest

theorem pushedMessages_eq (ops : List QueueOp) :
    EvictingQueue.pushed (ops.map QueueOp.toOp) = pushedMessages ops := by
  unfold EvictingQueue.pushed pushedMessages
  rw [List.flatMap_map]
  congr 1
  funext op
  cases op <;> rfl

theorem kept_eq_filter (l : List SimToServer) :
    EvictingQueue.kept evictionPolicy l = l.filter isNeverDrop := by
  unfold EvictingQueue.kept evictionPolicy
  refine List.filter_congr fun msg _ => ?_
  rw [Bool.eq_iff_iff, decide_eq_true_iff]
  exact evictionRank_eq_zero_iff msg

theorem saturated_iff (q : InboundQueue) :
    EvictingQueue.Saturated evictionPolicy q.cap.toNat q.items ↔ q.FullOfNeverDrop := by
  unfold EvictingQueue.Saturated InboundQueue.FullOfNeverDrop evictionPolicy
  simp only [evictionRank_eq_zero_iff]

/-- No operation brings a never-drop message to a queue full of them. -/
theorem noOverflow_iff (s : QueueRun) (ops : List QueueOp) :
    EvictingQueue.NoOverflow evictionPolicy s.queue.cap.toNat s.toAccount (ops.map QueueOp.toOp) ↔
      ∀ before msg after, ops = before ++ .push msg :: after → isNeverDrop msg = true →
        ¬ (s.run before).queue.FullOfNeverDrop := by
  induction ops generalizing s with
  | nil => simp [EvictingQueue.NoOverflow]
  | cons op ops ih =>
    have hrest := ih (s.step op)
    rw [QueueRun.cap_step, QueueRun.toAccount_step] at hrest
    rw [List.map_cons, EvictingQueue.NoOverflow, hrest]
    constructor
    · rintro ⟨hhead, htail⟩ before msg after heq hmsg
      cases before with
      | nil =>
        obtain ⟨rfl, rfl⟩ := List.cons.inj heq
        intro hfull
        exact hhead msg rfl ⟨(evictionRank_eq_zero_iff msg).mpr hmsg, (saturated_iff s.queue).mpr hfull⟩
      | cons op' before =>
        obtain ⟨rfl, rfl⟩ := List.cons.inj heq
        exact htail before msg after rfl hmsg
    · intro h
      refine ⟨?_, fun before msg after heq => h (op :: before) msg after (heq ▸ rfl)⟩
      intro msg hop hover
      cases op with
      | tryRecv => cases hop
      | push msg' =>
        obtain rfl := EvictingQueue.Op.push.inj hop
        exact h [] msg' ops rfl ((evictionRank_eq_zero_iff msg').mp hover.1)
          ((saturated_iff s.queue).mp hover.2)

/-- **Never-drop messages.** A run keeps all of them if and only if none arrives
when the queue is full of never-drop messages. -/
theorem neverDropKept_iff (cap : UInt64) (ops : List QueueOp) :
    NeverDropKept cap ops ↔
      ∀ before msg after, ops = before ++ .push msg :: after → isNeverDrop msg = true →
        ¬ ((QueueRun.start cap).run before).queue.FullOfNeverDrop := by
  have hiff := EvictingQueue.run_kept_iff evictionPolicy cap.toNat (QueueRun.start cap).toAccount
    (ops.map QueueOp.toOp)
  have hrun := (QueueRun.start cap).toAccount_run ops
  change _ = EvictingQueue.Account.run evictionPolicy cap.toNat _ _ at hrun
  rw [← hrun, kept_eq_filter, kept_eq_filter, kept_eq_filter, pushedMessages_eq] at hiff
  exact hiff.trans (noOverflow_iff (QueueRun.start cap) ops)

/-- A waited inject leaves one ack behind. With the capacity every session gets, the
ack that follows 128 unread ones is discarded. -/
theorem not_neverDropKept_unread_acks :
    ¬ NeverDropKept queueCapacity
      (List.replicate 129 (.push { payload := some (.inputAck { accepted := true }) })) := by
  decide +kernel

end CsmProxy
