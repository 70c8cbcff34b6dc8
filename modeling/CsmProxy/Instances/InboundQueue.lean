import CsmProxy.Foundations.EvictingQueue
import CsmProxy.Protocol.Messages
import Mathlib.Data.Prod.Lex

/-!
# The inbound queue

`InboundQueue` of `instances.rs`: the bounded queue of one session, with the
classifiers that decide what a full queue drops. The queue carries the bound on its
length as a field. `pushItems` is the body of `push` on the stored list; it is the
push of `Foundations.EvictingQueue` under the policy `evictionPolicy`
(`pushItems_eq_push`), and everything proved about the queue goes through that
equation.
-/

namespace CsmProxy

open Foundations

/-- Capacity of each per-instance inbound and outbound queue (`QUEUE_CAPACITY`). -/
def queueCapacity : UInt64 := 128

/-! ## Classifiers -/

/-- `InstanceMap::is_heartbeat` -/
def isHeartbeat (msg : SimToServer) : Bool :=
  match msg.payload with
  | some (.heartbeat _) => true
  | _ => false

/-- `InstanceMap::is_never_drop` -/
def isNeverDrop (msg : SimToServer) : Bool :=
  match msg.payload with
  | some (.inputAck _) | some (.uiResult _) | some (.snapshot _) | some (.snapshotError _) => true
  | some (.log log) => log.component = "ACT" || log.component = "ERS"
  | _ => false

/-- `InstanceMap::eviction_rank` -/
def evictionRank (msg : SimToServer) : Nat :=
  match msg.payload with
  | some (.heartbeat _) => 4
  | some (.log log) =>
    if log.component = "MEM" || log.component = "SCT" then 3
    else if log.component = "ACT" || log.component = "ERS" then 0
    else 2
  | _ => if !isNeverDrop msg then 1 else 0

/-- `usize::MAX` on a 64-bit target. -/
def usizeMax : Nat := UInt64.size - 1

/-- `Iterator::max_by_key`: the last of the elements with the greatest key. -/
def maxByKey {α κ : Type} [LinearOrder κ] (key : α → κ) : List α → Option α
  | [] => none
  | a :: as => some (as.foldl (fun best x => if key best ≤ key x then x else best) a)

/-- `InstanceMap::eviction_index` -/
def evictionIndex (items : List SimToServer) : Option Nat :=
  (maxByKey (fun e => toLex (evictionRank e.1, usizeMax - e.2))
    (items.zipIdx.filter fun e => evictionRank e.1 > 0)).map fun e => e.2

theorem evictionRank_eq_zero_iff (msg : SimToServer) :
    evictionRank msg = 0 ↔ isNeverDrop msg = true := by
  obtain ⟨seq, corr, payload⟩ := msg
  cases payload with
  | none => simp [evictionRank, isNeverDrop]
  | some payload =>
    cases payload with
    | log log =>
      simp only [evictionRank, isNeverDrop]
      by_cases hm : log.component = "MEM" ∨ log.component = "SCT"
      · rcases hm with h | h <;> simp [h]
      · by_cases ha : log.component = "ACT" ∨ log.component = "ERS"
        · rcases ha with h | h <;> simp [h]
        · simp [hm, ha]
    | _ => simp [evictionRank, isNeverDrop]

theorem isNeverDrop_of_heartbeat {msg : SimToServer} (h : isHeartbeat msg = true) :
    isNeverDrop msg = false := by
  obtain ⟨seq, corr, payload⟩ := msg
  rcases payload with _ | (_ | _ | _ | _ | _ | _ | _ | _ | _) <;>
    simp_all [isHeartbeat, isNeverDrop]

/-- The eviction policy of the inbound queue: an incoming heartbeat is refused,
because the latest one is already on `Instance.last_heartbeat`. -/
def evictionPolicy : EvictingQueue.Policy SimToServer where
  rank := evictionRank
  refuse := isHeartbeat
  refuse_rank msg h := by
    rw [ne_eq, evictionRank_eq_zero_iff, isNeverDrop_of_heartbeat h]
    decide

/-! ## `eviction_index` picks the victim -/

theorem maxByKey_eq_none {α κ : Type} [LinearOrder κ] {key : α → κ} {l : List α} :
    maxByKey key l = none ↔ l = [] := by
  cases l <;> simp [maxByKey]

theorem foldl_max_spec {α κ : Type} [LinearOrder κ] (key : α → κ) (l : List α) (a : α) :
    let r := l.foldl (fun best x => if key best ≤ key x then x else best) a
    (r = a ∨ r ∈ l) ∧ key a ≤ key r ∧ ∀ x ∈ l, key x ≤ key r := by
  induction l generalizing a with
  | nil => exact ⟨Or.inl rfl, le_refl _, by simp⟩
  | cons b l ih =>
    simp only [List.foldl_cons, List.mem_cons, forall_eq_or_imp]
    obtain ⟨hmem, hle, hall⟩ := ih (if key a ≤ key b then b else a)
    by_cases hab : key a ≤ key b
    · rw [if_pos hab] at hmem hle hall ⊢
      exact ⟨Or.inr hmem, hab.trans hle, hle, hall⟩
    · rw [if_neg hab] at hmem hle hall ⊢
      exact ⟨hmem.imp_right Or.inr, hle, (le_of_not_ge hab).trans hle, hall⟩

theorem maxByKey_eq_some {α κ : Type} [LinearOrder κ] {key : α → κ} {l : List α} {r : α}
    (h : maxByKey key l = some r) : r ∈ l ∧ ∀ x ∈ l, key x ≤ key r := by
  cases l with
  | nil => cases h
  | cons a l =>
    obtain ⟨hmem, hle, hall⟩ := foldl_max_spec key l a
    obtain rfl := Option.some.inj h
    exact ⟨List.mem_cons.mpr hmem, List.forall_mem_cons.mpr ⟨hle, hall⟩⟩

/-- The reversed index of the key makes the oldest message win among equal ranks,
as long as every index fits in a `usize`. -/
theorem evictionIndex_eq_victim {items : List SimToServer} (hlen : items.length ≤ usizeMax) :
    evictionIndex items = EvictingQueue.victim evictionRank items := by
  unfold evictionIndex
  cases hm : maxByKey (fun e => toLex (evictionRank e.1, usizeMax - e.2))
      (items.zipIdx.filter fun e => evictionRank e.1 > 0) with
  | none =>
    rw [maxByKey_eq_none, List.filter_eq_nil_iff] at hm
    refine (EvictingQueue.victim_eq_none.mpr fun msg hmsg => ?_).symm
    obtain ⟨i, hi, rfl⟩ := List.mem_iff_getElem.mp hmsg
    have := hm (items[i], i) (List.mem_zipIdx_iff_getElem?.mpr (List.getElem?_eq_getElem hi))
    simpa using this
  | some e =>
    obtain ⟨msg, i⟩ := e
    obtain ⟨hmem, hmax⟩ := maxByKey_eq_some hm
    obtain ⟨hzip, hpos⟩ := List.mem_filter.mp hmem
    obtain ⟨hi, heq⟩ := List.getElem?_eq_some_iff.mp (List.mem_zipIdx_iff_getElem?.mp hzip)
    dsimp only at hi heq
    subst heq
    replace hpos : 0 < evictionRank items[i] := by simpa using hpos
    -- the key of any other candidate, compared lexicographically
    have hkey : ∀ j (hj : j < items.length), 0 < evictionRank items[j] →
        evictionRank items[j] < evictionRank items[i] ∨
          (evictionRank items[j] = evictionRank items[i] ∧ usizeMax - j ≤ usizeMax - i) := by
      intro j hj hr
      have hin : (items[j], j) ∈ items.zipIdx.filter fun e => evictionRank e.1 > 0 :=
        List.mem_filter.mpr
          ⟨List.mem_zipIdx_iff_getElem?.mpr (List.getElem?_eq_getElem hj), by simpa using hr⟩
      simpa [Prod.Lex.toLex_le_toLex] using hmax _ hin
    refine (EvictingQueue.victim_eq_some.mpr ⟨hi, hpos.ne', ?_, ?_⟩).symm
    · intro other hother
      obtain ⟨j, hj, rfl⟩ := List.mem_iff_getElem.mp hother
      by_cases hr : 0 < evictionRank items[j]
      · have := hkey j hj hr
        omega
      · omega
    · intro j hj
      by_cases hr : 0 < evictionRank items[j]
      · have := hkey j (hj.trans hi) hr
        omega
      · omega

/-! ## The queue -/

/-- The body of `InboundQueue::push` on the stored messages. The two last branches
of the source both discard the incoming message. -/
def pushItems (cap : UInt64) (items : List SimToServer) (msg : SimToServer) : List SimToServer :=
  if items.length = cap.toNat then
    if isHeartbeat msg then items
    else match evictionIndex items with
      | some index => items.eraseIdx index ++ [msg]
      | none => if !isNeverDrop msg then items else items
  else items ++ [msg]

theorem pushItems_eq_push {cap : UInt64} {items : List SimToServer} (msg : SimToServer)
    (h : items.length ≤ cap.toNat) :
    pushItems cap items msg = EvictingQueue.push evictionPolicy cap.toNat items msg := by
  have hlen : items.length ≤ usizeMax := h.trans (Nat.le_pred_of_lt cap.toNat_lt_size)
  simp only [pushItems, EvictingQueue.push, evictionIndex_eq_victim hlen, ite_self]
  rfl

theorem nil_bounded {α : Type} (cap : UInt64) : ([] : List α).length ≤ cap.toNat :=
  Nat.zero_le _

/-- `InboundQueue`; the capacity is a `usize`. -/
structure InboundQueue where
  items : List SimToServer
  cap : UInt64
  bounded : items.length ≤ cap.toNat

namespace InboundQueue

/-- `InboundQueue::new` -/
def new (cap : UInt64) : InboundQueue := ⟨[], cap, nil_bounded cap⟩

/-- `InboundQueue::push` -/
def push (q : InboundQueue) (msg : SimToServer) : InboundQueue where
  items := pushItems q.cap q.items msg
  cap := q.cap
  bounded := pushItems_eq_push msg q.bounded ▸ EvictingQueue.push_length_le _ msg q.bounded

/-- `InboundQueue::try_recv` -/
def tryRecv (q : InboundQueue) : Option SimToServer × InboundQueue :=
  (q.items.head?, ⟨q.items.tail, q.cap, (List.tail_sublist _).length_le.trans q.bounded⟩)

theorem items_push (q : InboundQueue) (msg : SimToServer) :
    (q.push msg).items = EvictingQueue.push evictionPolicy q.cap.toNat q.items msg :=
  pushItems_eq_push msg q.bounded

theorem push_sublist (q : InboundQueue) (msg : SimToServer) :
    (q.push msg).items.Sublist (q.items ++ [msg]) :=
  q.items_push msg ▸ EvictingQueue.push_sublist _ _ _ _

end InboundQueue

end CsmProxy
