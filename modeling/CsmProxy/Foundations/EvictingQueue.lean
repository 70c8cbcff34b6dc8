import Mathlib.Data.List.Basic
import Mathlib.Order.Nat
import Mathlib.Tactic.Push

/-!
# Bounded queues that evict by rank

A first-in first-out queue with a capacity. Every element has a rank; rank `0`
means that the element is kept. An element that arrives at a full queue takes the
place of the oldest resident of the greatest rank, provided that rank is positive;
otherwise it is lost itself. A policy may also refuse some elements at a full queue
outright.

The main result, `run_kept_iff`, says exactly when a run of pushes and pops loses
no kept element: no kept element arrives at a queue that is full of kept ones
(`NoOverflow`).
-/

namespace CsmProxy.Foundations.EvictingQueue

variable {α : Type}

/-- How a full queue makes room. A refused element has a positive rank. -/
structure Policy (α : Type) where
  rank : α → Nat
  refuse : α → Bool
  refuse_rank : ∀ a, refuse a = true → rank a ≠ 0

/-! ## The victim -/

/-- The greatest rank in the queue. -/
def topRank (rank : α → Nat) (q : List α) : Nat := q.foldr (fun a m => max (rank a) m) 0

/-- The oldest element of the greatest rank, when that rank is positive. -/
def victim (rank : α → Nat) (q : List α) : Option Nat :=
  if topRank rank q = 0 then none else q.findIdx? fun a => rank a = topRank rank q

theorem rank_le_topRank {rank : α → Nat} {q : List α} {a : α} (ha : a ∈ q) :
    rank a ≤ topRank rank q := by
  induction q with
  | nil => simp at ha
  | cons b q ih =>
    rw [topRank, List.foldr_cons]
    rcases List.mem_cons.mp ha with rfl | ha
    · exact Nat.le_max_left _ _
    · exact (ih ha).trans (Nat.le_max_right _ _)

theorem exists_rank_eq_topRank {rank : α → Nat} {q : List α} (h : topRank rank q ≠ 0) :
    ∃ a ∈ q, rank a = topRank rank q := by
  induction q with
  | nil => exact absurd rfl h
  | cons b q ih =>
    have hc : topRank rank (b :: q) = max (rank b) (topRank rank q) := rfl
    rw [hc] at h ⊢
    by_cases hb : topRank rank q ≤ rank b
    · exact ⟨b, List.mem_cons_self, (max_eq_left hb).symm⟩
    · obtain ⟨a, ha, hr⟩ := ih (by omega)
      exact ⟨a, List.mem_cons_of_mem _ ha, hr.trans (max_eq_right (by omega)).symm⟩

theorem victim_eq_none {rank : α → Nat} {q : List α} :
    victim rank q = none ↔ ∀ a ∈ q, rank a = 0 := by
  unfold victim
  split
  · rename_i h
    refine iff_of_true rfl fun a ha => ?_
    have hle : rank a ≤ topRank rank q := rank_le_topRank ha
    omega
  · rename_i h
    obtain ⟨a, ha, hr⟩ := exists_rank_eq_topRank h
    refine iff_of_false ?_ ?_
    · rw [List.findIdx?_eq_none_iff]
      intro hall
      simpa [hr] using hall a ha
    · intro hall
      exact h (hr.symm.trans (hall a ha))

/-- The victim has the greatest rank, that rank is positive, and every older
element ranks lower. -/
theorem victim_eq_some {rank : α → Nat} {q : List α} {i : Nat} :
    victim rank q = some i ↔ ∃ h : i < q.length, rank q[i] ≠ 0 ∧
      (∀ a ∈ q, rank a ≤ rank q[i]) ∧ ∀ j (hj : j < i), rank q[j] < rank q[i] := by
  unfold victim
  constructor
  · intro hv
    split at hv
    · cases hv
    · rename_i hpos
      obtain ⟨h, htop, hfirst⟩ := List.findIdx?_eq_some_iff_getElem.mp hv
      replace htop : rank q[i] = topRank rank q := by simpa using htop
      refine ⟨h, htop ▸ hpos, fun a ha => htop ▸ rank_le_topRank ha, fun j hj => ?_⟩
      have hne : ¬ rank q[j] = topRank rank q := by simpa using hfirst j hj
      have hle : rank q[j] ≤ topRank rank q := rank_le_topRank (List.getElem_mem (hj.trans h))
      omega
  · rintro ⟨h, hpos, hmax, hfirst⟩
    have hle : rank q[i] ≤ topRank rank q := rank_le_topRank (List.getElem_mem h)
    have htop : topRank rank q ≠ 0 := by omega
    obtain ⟨a, ha, hr⟩ := exists_rank_eq_topRank htop
    have heq : rank q[i] = topRank rank q := le_antisymm hle (hr ▸ hmax a ha)
    rw [if_neg htop, List.findIdx?_eq_some_iff_getElem]
    refine ⟨h, by simpa using heq, fun j hj => ?_⟩
    have := hfirst j hj
    have hne : rank q[j] ≠ topRank rank q := by omega
    simpa using hne

/-! ## Pushing -/

/-- Put `a` at the end of a queue of capacity `cap`. -/
def push (p : Policy α) (cap : Nat) (q : List α) (a : α) : List α :=
  if q.length = cap then
    if p.refuse a then q
    else match victim p.rank q with
      | some i => q.eraseIdx i ++ [a]
      | none => q
  else q ++ [a]

theorem push_length_le (p : Policy α) {cap : Nat} {q : List α} (a : α) (h : q.length ≤ cap) :
    (push p cap q a).length ≤ cap := by
  unfold push
  split
  · split
    · exact h
    · split
      · rename_i i hv
        obtain ⟨hi, -⟩ := victim_eq_some.mp hv
        rw [List.length_append, List.length_eraseIdx_of_lt hi, List.length_singleton]
        omega
      · exact h
  · rw [List.length_append, List.length_singleton]
    omega

/-- A push keeps the order of the queue and adds at most its own element. -/
theorem push_sublist (p : Policy α) (cap : Nat) (q : List α) (a : α) :
    (push p cap q a).Sublist (q ++ [a]) := by
  unfold push
  split
  · split
    · exact List.sublist_append_left q [a]
    · split
      · exact (List.eraseIdx_sublist q _).append_right [a]
      · exact List.sublist_append_left q [a]
  · exact List.Sublist.refl _

/-- `q'` is `q` without `v`, its oldest element of the greatest rank, and that rank is
positive. -/
structure Evicts (rank : α → Nat) (q : List α) (v : α) (q' : List α) : Prop where
  split : ∃ before after, q = before ++ v :: after ∧ q' = before ++ after ∧
    ∀ a ∈ before, rank a < rank v
  positive : 0 < rank v
  greatest : ∀ a ∈ q, rank a ≤ rank v

theorem evicts_eraseIdx {rank : α → Nat} {q : List α} {i : Nat} (h : victim rank q = some i) :
    ∃ v, Evicts rank q v (q.eraseIdx i) := by
  obtain ⟨hi, hpos, hmax, hfirst⟩ := victim_eq_some.mp h
  refine ⟨q[i], ⟨q.take i, q.drop (i + 1), ?_, List.eraseIdx_eq_take_drop_succ .., ?_⟩,
    Nat.pos_of_ne_zero hpos, hmax⟩
  · rw [← List.drop_eq_getElem_cons hi, List.take_append_drop]
  · intro a ha
    obtain ⟨j, hj, rfl⟩ := List.mem_iff_getElem.mp ha
    rw [List.length_take] at hj
    rw [List.getElem_take]
    exact hfirst j (by omega)

theorem push_of_length_lt (p : Policy α) {cap : Nat} {q : List α} (a : α) (h : q.length < cap) :
    push p cap q a = q ++ [a] := if_neg h.ne

/-- A push at a full queue loses its own element, or takes the place of an evicted one. -/
theorem push_full {p : Policy α} {cap : Nat} {q : List α} (a : α) (h : q.length = cap) :
    (push p cap q a = q ∧ (p.refuse a = true ∨ ∀ b ∈ q, p.rank b = 0)) ∨
      ∃ v rest, Evicts p.rank q v rest ∧ push p cap q a = rest ++ [a] := by
  rw [push, if_pos h]
  by_cases hr : p.refuse a = true
  · exact Or.inl ⟨if_pos hr, Or.inl hr⟩
  · rw [if_neg hr]
    cases hv : victim p.rank q with
    | none => exact Or.inl ⟨rfl, Or.inr (victim_eq_none.mp hv)⟩
    | some i =>
      obtain ⟨v, hev⟩ := evicts_eraseIdx hv
      exact Or.inr ⟨v, q.eraseIdx i, hev, rfl⟩

/-! ## Kept elements -/

/-- The elements of rank `0`. -/
def kept (p : Policy α) (q : List α) : List α := q.filter fun a => p.rank a = 0

theorem kept_append (p : Policy α) (q r : List α) : kept p (q ++ r) = kept p q ++ kept p r :=
  List.filter_append ..

theorem kept_eraseIdx {p : Policy α} {q : List α} {i : Nat} (h : i < q.length)
    (hi : p.rank q[i] ≠ 0) : kept p (q.eraseIdx i) = kept p q := by
  have hq : q.take i ++ q[i] :: q.drop (i + 1) = q := by
    rw [← List.drop_eq_getElem_cons h, List.take_append_drop]
  calc kept p (q.eraseIdx i) = kept p (q.take i) ++ kept p (q.drop (i + 1)) := by
        rw [List.eraseIdx_eq_take_drop_succ, kept_append]
    _ = kept p (q.take i ++ q[i] :: q.drop (i + 1)) := by
        have hcons : kept p (q[i] :: q.drop (i + 1)) = kept p (q.drop (i + 1)) :=
          List.filter_cons_of_neg (by simpa using hi)
        rw [kept_append, hcons]
    _ = kept p q := by rw [hq]

/-- The queue is full and nobody in it may be evicted. -/
def Saturated (p : Policy α) (cap : Nat) (q : List α) : Prop :=
  q.length = cap ∧ ∀ a ∈ q, p.rank a = 0

/-- A kept element arrives at a saturated queue. -/
def Overflow (p : Policy α) (cap : Nat) (q : List α) (a : α) : Prop :=
  p.rank a = 0 ∧ Saturated p cap q

theorem kept_push {p : Policy α} {cap : Nat} {q : List α} {a : α}
    (h : ¬ Overflow p cap q a) : kept p (push p cap q a) = kept p q ++ kept p [a] := by
  unfold push
  split
  · rename_i hfull
    split
    · rename_i hr
      have hrank := p.refuse_rank a hr
      simp [kept, hrank]
    · split
      · rename_i i hv
        obtain ⟨hi, hpos, -⟩ := victim_eq_some.mp hv
        rw [kept_append, kept_eraseIdx hi hpos]
      · rename_i hv
        have hrank : p.rank a ≠ 0 := fun h0 => h ⟨h0, hfull, victim_eq_none.mp hv⟩
        simp [kept, hrank]
  · exact kept_append p q [a]

theorem push_overflow {p : Policy α} {cap : Nat} {q : List α} {a : α}
    (h : Overflow p cap q a) : push p cap q a = q := by
  obtain ⟨-, hfull, hkept⟩ := h
  unfold push
  rw [if_pos hfull, victim_eq_none.mpr hkept]
  split <;> rfl

/-- No kept resident leaves the queue in a push. -/
theorem kept_prefix_push (p : Policy α) (cap : Nat) (q : List α) (a : α) :
    kept p q <+: kept p (push p cap q a) := by
  by_cases h : Overflow p cap q a
  · have hsame : kept p (push p cap q a) = kept p q := congrArg (kept p) (push_overflow h)
    exact hsame ▸ List.prefix_rfl
  · rw [kept_push h]
    exact List.prefix_append _ _

/-! ## Runs -/

/-- An operation on the queue. -/
inductive Op (α : Type) where
  | push (a : α)
  | pop

/-- The element an operation brings. -/
def Op.pushed : Op α → List α
  | .push a => [a]
  | .pop => []

/-- The elements a run brings, in order. -/
def pushed (ops : List (Op α)) : List α := ops.flatMap Op.pushed

/-- The elements popped so far and the queue. -/
structure Account (α : Type) where
  popped : List α
  queue : List α

namespace Account

/-- Every element that is not lost, in the order of its push. -/
def all (s : Account α) : List α := s.popped ++ s.queue

/-- One operation. -/
def step (p : Policy α) (cap : Nat) (s : Account α) : Op α → Account α
  | .push a => { s with queue := push p cap s.queue a }
  | .pop => { popped := s.popped ++ s.queue.take 1, queue := s.queue.drop 1 }

/-- A run of operations. -/
def run (p : Policy α) (cap : Nat) (s : Account α) (ops : List (Op α)) : Account α :=
  ops.foldl (step p cap) s

theorem step_pop_all (p : Policy α) (cap : Nat) (s : Account α) :
    (s.step p cap .pop).all = s.all := by
  simp only [step, all, List.append_assoc, List.take_append_drop]

theorem all_step_sublist (p : Policy α) (cap : Nat) (s : Account α) (op : Op α) :
    (s.step p cap op).all.Sublist (s.all ++ op.pushed) := by
  cases op with
  | push a =>
    rw [all, all, List.append_assoc]
    exact (push_sublist p cap s.queue a).append_left s.popped
  | pop =>
    rw [step_pop_all]
    exact List.sublist_append_left _ _

/-- A run keeps the order of the pushes and invents nothing. -/
theorem all_run_sublist (p : Policy α) (cap : Nat) (s : Account α) (ops : List (Op α)) :
    (s.run p cap ops).all.Sublist (s.all ++ pushed ops) := by
  induction ops generalizing s with
  | nil => exact List.sublist_append_left _ _
  | cons op ops ih =>
    have hrest := ih (s.step p cap op)
    have hstep := (all_step_sublist p cap s op).append_right (pushed ops)
    rw [List.append_assoc] at hstep
    exact hrest.trans hstep

end Account

/-- No operation of the run brings a kept element to a saturated queue. -/
def NoOverflow (p : Policy α) (cap : Nat) (s : Account α) : List (Op α) → Prop
  | [] => True
  | op :: ops => (∀ a, op = .push a → ¬ Overflow p cap s.queue a) ∧
      NoOverflow p cap (s.step p cap op) ops

theorem kept_step {p : Policy α} {cap : Nat} {s : Account α} {op : Op α}
    (h : ∀ a, op = .push a → ¬ Overflow p cap s.queue a) :
    kept p (s.step p cap op).all = kept p s.all ++ kept p op.pushed := by
  cases op with
  | push a =>
    simp only [Account.step, Account.all, Op.pushed, kept_append, List.append_assoc,
      kept_push (h a rfl)]
  | pop =>
    rw [Account.step_pop_all]
    simp [kept, Op.pushed]

theorem kept_step_overflow {p : Policy α} {cap : Nat} {s : Account α} {a : α}
    (h : Overflow p cap s.queue a) :
    kept p (s.step p cap (.push a)).all = kept p s.all := by
  simp only [Account.step, Account.all, push_overflow h]

/-- A run never gains kept elements. -/
theorem kept_run_length_le (p : Policy α) (cap : Nat) (s : Account α) (ops : List (Op α)) :
    (kept p (s.run p cap ops).all).length ≤
      (kept p s.all).length + (kept p (pushed ops)).length := by
  induction ops generalizing s with
  | nil => exact Nat.le_add_right _ _
  | cons op ops ih =>
    have hrest := ih (s.step p cap op)
    have hp : pushed (op :: ops) = op.pushed ++ pushed ops := rfl
    rw [hp, kept_append, List.length_append]
    by_cases h : ∀ a, op = .push a → ¬ Overflow p cap s.queue a
    · rw [kept_step h, List.length_append] at hrest
      simpa [Account.run, Nat.add_assoc] using hrest
    · push Not at h
      obtain ⟨a, rfl, ha⟩ := h
      rw [kept_step_overflow ha] at hrest
      simp only [Account.run, List.foldl_cons] at hrest ⊢
      omega

/-- **Conservation.** A run loses no kept element if and only if no kept element
arrives at a saturated queue. -/
theorem run_kept_iff (p : Policy α) (cap : Nat) (s : Account α) (ops : List (Op α)) :
    kept p (s.run p cap ops).all = kept p s.all ++ kept p (pushed ops) ↔
      NoOverflow p cap s ops := by
  induction ops generalizing s with
  | nil => simp [Account.run, pushed, kept, NoOverflow]
  | cons op ops ih =>
    have hp : pushed (op :: ops) = op.pushed ++ pushed ops := rfl
    have hr : s.run p cap (op :: ops) = (s.step p cap op).run p cap ops := rfl
    rw [hp, hr, kept_append, NoOverflow]
    by_cases h : ∀ a, op = .push a → ¬ Overflow p cap s.queue a
    · rw [and_iff_right h, ← ih, kept_step h, List.append_assoc]
    · refine iff_of_false ?_ fun hno => h hno.1
      push Not at h
      obtain ⟨a, rfl, ha⟩ := h
      -- the kept element that overflows is missing for the rest of the run
      intro heq
      have hle := kept_run_length_le p cap (s.step p cap (.push a)) ops
      rw [heq, kept_step_overflow ha] at hle
      have hone : kept p [a] = [a] := by simp [kept, ha.1]
      simp only [Op.pushed, hone, List.length_append, List.length_singleton] at hle
      omega

end CsmProxy.Foundations.EvictingQueue
