import CsmProxy.Foundations.TaskPool
import Mathlib.Data.Nat.Find
import Mathlib.Order.Monotone.Basic
import Mathlib.Order.WellFounded

/-!
# Executions

An execution is a run that goes on for ever. It is fair to a task that steps whenever it
could have stepped from some moment on (weak fairness).

`Execution.Fair.settles` is the rule for progress: a task that has ever less left to do, and
that after a while can always step, comes to rest. `Execution.after` puts a schedule in front
of an execution.
-/

namespace CsmProxy.Foundations.Pool

variable {G L I : Type} {P : Pool G L I}

/-- The task can take a step. -/
def Ready (P : Pool G L I) (c : Config G L) (t : Nat) : Prop := ∃ i c', P.fire c t i = some c'

theorem ready_iff {c : Config G L} {t : Nat} :
    P.Ready c t ↔ ∃ i r, P.step t c.shared (c.task t) i = some r := by
  constructor
  · rintro ⟨i, c', hf⟩
    exact ⟨i, _, (fire_step hf).1⟩
  · rintro ⟨i, ⟨g, l⟩, hs⟩
    exact ⟨i, _, fire_eq_some.mpr ⟨g, l, hs, rfl⟩⟩

/-- A run that goes on for ever. -/
structure Execution (P : Pool G L I) where
  config : Nat → Config G L
  turn : Nat → Nat × I
  fires : ∀ n, P.fire (config n) (turn n).1 (turn n).2 = some (config (n + 1))

namespace Execution

/-- The local state of the task at a moment. -/
abbrev taskAt (e : P.Execution) (n t : Nat) : L := (e.config n).task t

/-- The task does not wait for ever for a step that it could take all the time. -/
def Fair (e : P.Execution) (t : Nat) : Prop :=
  ∀ n, (∀ m, n ≤ m → P.Ready (e.config m) t) → ∃ m, n ≤ m ∧ (e.turn m).1 = t

variable {e : P.Execution} {t : Nat}

theorem reach (e : P.Execution) (n : Nat) : P.Reach anyStep (e.config 0) (e.config n) := by
  induction n with
  | zero => exact .refl
  | succ n ih => exact .tail ih trivial (e.fires n)

theorem step_of_turn {n : Nat} (hturn : (e.turn n).1 = t) :
    P.step t (e.config n).shared (e.taskAt n t) (e.turn n).2 =
      some ((e.config (n + 1)).shared, e.taskAt (n + 1) t) := by
  subst hturn
  exact (fire_step (e.fires n)).1

theorem taskAt_succ {n : Nat} (hturn : (e.turn n).1 ≠ t) : e.taskAt (n + 1) t = e.taskAt n t :=
  (fire_step (e.fires n)).2 t hturn.symm

/-- A task that does not step is where it was. -/
theorem taskAt_idle {n k : Nat} (hle : n ≤ k) (hidle : ∀ j, n ≤ j → j < k → (e.turn j).1 ≠ t) :
    e.taskAt k t = e.taskAt n t := by
  induction k, hle using Nat.le_induction with
  | base => rfl
  | succ k hle ih =>
    have hlast : (e.turn k).1 ≠ t := hidle k hle (Nat.lt_succ_self k)
    rw [taskAt_succ hlast]
    exact ih fun j hj hjk => hidle j hj (Nat.lt_succ_of_lt hjk)

/-- What every step keeps holds from any moment on. -/
theorem keeps {p : Config G L → Prop} {n k : Nat} (hle : n ≤ k) (hn : p (e.config n))
    (step : ∀ c me i c', p c → P.fire c me i = some c' → p c') : p (e.config k) := by
  induction k, hle using Nat.le_induction with
  | base => exact hn
  | succ k _ ih => exact step _ _ _ _ ih (e.fires k)

/-- A fair task that after a while can always step does step: its first step from here on. -/
theorem Fair.steps (fair : e.Fair t) {n m : Nat} (hle : n ≤ m)
    (hready : ∀ k, m ≤ k → e.taskAt k t = e.taskAt n t → P.Ready (e.config k) t) :
    ∃ k, n ≤ k ∧ (e.turn k).1 = t ∧ ∀ j, n ≤ j → j < k → (e.turn j).1 ≠ t := by
  have hsteps : ∃ k, n ≤ k ∧ (e.turn k).1 = t := by
    by_contra hnone
    have hidle : ∀ k, n ≤ k → (e.turn k).1 ≠ t := fun k hk hturn => hnone ⟨k, hk, hturn⟩
    have hsame : ∀ k, n ≤ k → e.taskAt k t = e.taskAt n t := fun k hk =>
      taskAt_idle hk fun j hj _ => hidle j hj
    obtain ⟨k, hk, hturn⟩ := fair m fun k hk => hready k hk (hsame k (hle.trans hk))
    exact hidle k (hle.trans hk) hturn
  classical
  obtain ⟨hk, hturn⟩ := Nat.find_spec hsteps
  exact ⟨Nat.find hsteps, hk, hturn, fun j hj hlt hstep => Nat.find_min hsteps hlt ⟨hj, hstep⟩⟩

/-- A fair task comes to rest if each of its steps leaves it less to do, the steps of the
others leave it no more, and after a while it can always step. -/
theorem Fair.settles {α : Type} [Preorder α] [WellFoundedLT α] (fair : e.Fair t)
    (rest : L → Prop) (left : G → L → α) {start : Nat}
    (own : ∀ n, start ≤ n → (e.turn n).1 = t → ¬ rest (e.taskAt n t) →
      left (e.config (n + 1)).shared (e.taskAt (n + 1) t) <
        left (e.config n).shared (e.taskAt n t))
    (other : ∀ n l, left (e.config (n + 1)).shared l ≤ left (e.config n).shared l)
    (ready : ∀ n, start ≤ n → ¬ rest (e.taskAt n t) →
      ∃ m, n ≤ m ∧ ∀ k, m ≤ k → e.taskAt k t = e.taskAt n t → P.Ready (e.config k) t)
    {n : Nat} (hn : start ≤ n) : ∃ m, n ≤ m ∧ rest (e.taskAt m t) := by
  have hshared : ∀ l, Antitone fun n => left (e.config n).shared l := fun l =>
    antitone_nat_of_succ_le fun n => other n l
  induction hleft : left (e.config n).shared (e.taskAt n t) using WellFoundedLT.induction
    generalizing n with
  | ind a ih =>
    by_cases hrest : rest (e.taskAt n t)
    · exact ⟨n, Nat.le_refl n, hrest⟩
    · obtain ⟨m, hm, hready⟩ := ready n hn hrest
      obtain ⟨k, hk, hturn, hidle⟩ := fair.steps hm hready
      have hsame : e.taskAt k t = e.taskAt n t := taskAt_idle hk hidle
      have hless : left (e.config (k + 1)).shared (e.taskAt (k + 1) t) < a := by
        have hstep := own k (hn.trans hk) hturn (hsame ▸ hrest)
        rw [hsame] at hstep
        exact hleft ▸ hstep.trans_le (hshared _ hk)
      have hnext : n ≤ k + 1 := hk.trans (Nat.le_succ k)
      obtain ⟨m', hm', hrest'⟩ := ih _ hless (hn.trans hnext) rfl
      exact ⟨m', hnext.trans hm', hrest'⟩

/-! ## Putting a schedule in front -/

/-- The execution that starts with one more step. -/
def cons {c : Config G L} {me : Nat} {i : I} (e : P.Execution)
    (hf : P.fire c me i = some (e.config 0)) : P.Execution where
  config
    | 0 => c
    | n + 1 => e.config n
  turn
    | 0 => (me, i)
    | n + 1 => e.turn n
  fires
    | 0 => hf
    | n + 1 => e.fires n

/-- Where a schedule ends, an execution can go on. -/
theorem after {a : Config G L} {τ : List (Nat × I)} (e : P.Execution)
    (h : P.exec anyStep a τ = some (e.config 0)) :
    ∃ e' : P.Execution, e'.config 0 = a ∧
      ∀ n, e'.config (τ.length + n) = e.config n ∧ e'.turn (τ.length + n) = e.turn n := by
  induction τ generalizing a with
  | nil =>
    obtain rfl := Option.some.inj h
    exact ⟨e, rfl, fun n => by simp⟩
  | cons s rest ih =>
    obtain ⟨me, i⟩ := s
    simp only [exec, anyStep] at h
    obtain ⟨c, hc, hrest⟩ := Option.bind_eq_some_iff.mp h
    obtain ⟨e', rfl, htail⟩ := ih hrest
    refine ⟨e'.cons hc, rfl, fun n => ?_⟩
    rw [List.length_cons, Nat.add_right_comm]
    exact htail n

/-- Fairness is about what happens in the long run. -/
theorem Fair.of_tail {e' : P.Execution} {k : Nat}
    (htail : ∀ n, e'.config (k + n) = e.config n ∧ e'.turn (k + n) = e.turn n) (fair : e.Fair t) :
    e'.Fair t := by
  intro n hready
  obtain ⟨m, hm, hturn⟩ := fair n fun m hm => by
    rw [← (htail m).1]
    exact hready (k + m) (by omega)
  refine ⟨k + m, by omega, ?_⟩
  rw [(htail m).2]
  exact hturn

/-- Nothing is owed to a task that cannot step. -/
theorem fair_of_stuck (hstuck : ∀ n, ∃ m, n ≤ m ∧ ¬ P.Ready (e.config m) t) : e.Fair t := by
  intro n hready
  obtain ⟨m, hm, hno⟩ := hstuck n
  exact absurd (hready m hm) hno

end Execution

end CsmProxy.Foundations.Pool
