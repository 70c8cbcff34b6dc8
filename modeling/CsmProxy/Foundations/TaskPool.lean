import Mathlib.Logic.Function.Basic

/-!
# Pools of interleaved tasks

A pool runs any number of tasks over one shared state. A task is a local state of
type `L`; `step` executes one critical section of one task, with a choice made by
the environment (`I`: a message that arrives, the clock, a failing system call).
Every interleaving of the tasks is a sequence of such steps, so a statement about
all reachable configurations is a statement about all schedules.

Tasks are numbered by `Nat` and all of them exist from the start; a task that is
created later is one that does not step before. `Reach ok` are the runs all of
whose steps meet `ok`, a condition on the configuration before the step.
-/

namespace CsmProxy.Foundations

/-- The critical sections of a pool of tasks. -/
structure Pool (G L I : Type) where
  step : Nat → G → L → I → Option (G × L)

/-- A shared state and the local state of every task. -/
structure Config (G L : Type) where
  shared : G
  task : Nat → L

/-- The tasks `tasks`, numbered from `0`, and `idle` under every other number. -/
def Config.ofTasks {G L : Type} (g : G) (tasks : List L) (idle : L) : Config G L where
  shared := g
  task := fun t => tasks.getD t idle

theorem Config.forall_ofTasks {G L : Type} {g : G} {tasks : List L} {idle : L} {p : L → Prop}
    (hidle : p idle) (h : ∀ l ∈ tasks, p l) (t : Nat) : p ((ofTasks g tasks idle).task t) := by
  change p (tasks.getD t idle)
  rw [List.getD_eq_getElem?_getD]
  cases ht : tasks[t]? with
  | none => exact hidle
  | some l => exact h l (List.mem_of_getElem? ht)

/-- Another task under the number `t`. -/
def Config.setTask {G L : Type} (c : Config G L) (t : Nat) (l : L) : Config G L :=
  ⟨c.shared, Function.update c.task t l⟩

theorem Config.setTask_of_ne {G L : Type} {c : Config G L} {t t' : Nat} (h : t' ≠ t) {l : L} :
    (c.setTask t l).task t' = c.task t' := Function.update_of_ne h ..

theorem Config.setTask_self {G L : Type} (c : Config G L) (t : Nat) (l : L) :
    (c.setTask t l).task t = l := Function.update_self ..

namespace Pool

variable {G L I : Type} {P : Pool G L I}

/-- Task `me` executes one critical section, if `choice` allows it. -/
def fire (P : Pool G L I) (c : Config G L) (me : Nat) (choice : I) : Option (Config G L) :=
  (P.step me c.shared (c.task me) choice).map fun r => ⟨r.1, Function.update c.task me r.2⟩

theorem fire_eq_some {c c' : Config G L} {me : Nat} {i : I} :
    P.fire c me i = some c' ↔
      ∃ g l, P.step me c.shared (c.task me) i = some (g, l) ∧
        c' = ⟨g, Function.update c.task me l⟩ := by
  unfold fire
  rw [Option.map_eq_some_iff]
  constructor
  · rintro ⟨⟨g, l⟩, hs, rfl⟩
    exact ⟨g, l, hs, rfl⟩
  · rintro ⟨g, l, hs, rfl⟩
    exact ⟨(g, l), hs, rfl⟩

/-- A step is a section of the task that steps, and no other task moves. -/
theorem fire_step {c c' : Config G L} {me : Nat} {i : I} (h : P.fire c me i = some c') :
    P.step me c.shared (c.task me) i = some (c'.shared, c'.task me) ∧
      ∀ t, t ≠ me → c'.task t = c.task t := by
  obtain ⟨g, l, hs, rfl⟩ := fire_eq_some.mp h
  refine ⟨?_, fun t ht => Function.update_of_ne ht ..⟩
  dsimp only
  rw [hs, Function.update_self]

/-- A condition on the steps of a run. -/
abbrev Guard (G L I : Type) := Config G L → Nat → I → Prop

/-- `P.Reach ok a b`: some run from `a` to `b` meets `ok` at each of its steps. -/
inductive Reach (P : Pool G L I) (ok : Guard G L I) (a : Config G L) : Config G L → Prop
  | refl : Reach P ok a a
  | tail {b c : Config G L} {me : Nat} {i : I} (run : Reach P ok a b) (guard : ok b me i)
      (fire : P.fire b me i = some c) : Reach P ok a c

/-- No condition on the steps. -/
def anyStep : Guard G L I := fun _ _ _ => True

theorem Reach.mono {ok ok' : Guard G L I} (hok : ∀ c me i, ok c me i → ok' c me i)
    {a b : Config G L} (h : P.Reach ok a b) : P.Reach ok' a b := by
  induction h with
  | refl => exact .refl
  | tail _ guard fire ih => exact .tail ih (hok _ _ _ guard) fire

theorem Reach.trans {ok : Guard G L I} {a b c : Config G L} (h₁ : P.Reach ok a b)
    (h₂ : P.Reach ok b c) : P.Reach ok a c := by
  induction h₂ with
  | refl => exact h₁
  | tail _ guard fire ih => exact .tail ih guard fire

/-- What holds at the start and is kept by every admitted step holds along the run. -/
theorem Reach.invariant {ok : Guard G L I} {Inv : Config G L → Prop} {a b : Config G L}
    (h : P.Reach ok a b) (start : Inv a)
    (step : ∀ c me i c', Inv c → ok c me i → P.fire c me i = some c' → Inv c') : Inv b := by
  induction h with
  | refl => exact start
  | tail _ guard fire ih => exact step _ _ _ _ ih guard fire

/-- A condition on the steps can be read with what holds along every run. -/
theorem Reach.strengthen {ok ok' : Guard G L I} {Inv : Config G L → Prop} {a b : Config G L}
    (h : P.Reach ok a b) (start : Inv a)
    (step : ∀ c me i c', Inv c → P.fire c me i = some c' → Inv c')
    (hok : ∀ c me i, Inv c → ok c me i → ok' c me i) : P.Reach ok' a b := by
  suffices hboth : Inv b ∧ P.Reach ok' a b from hboth.2
  induction h with
  | refl => exact ⟨start, .refl⟩
  | tail _ guard fire ih =>
    obtain ⟨hinv, run⟩ := ih
    exact ⟨step _ _ _ _ hinv fire, .tail run (hok _ _ _ hinv guard) fire⟩

/-- A task that takes no step is where it was. -/
theorem Reach.task_idle {ok : Guard G L I} {a b : Config G L} {t : Nat}
    (hidle : ∀ c me i, ok c me i → me ≠ t) (h : P.Reach ok a b) : b.task t = a.task t := by
  induction h with
  | refl => rfl
  | tail _ guard fire ih => exact ((fire_step fire).2 t (hidle _ _ _ guard).symm).trans ih

/-- Only the tasks of a set step. -/
def stepsIn (tasks : Nat → Prop) : Guard G L I := fun _ t _ => tasks t

theorem fire_setTask {c c' : Config G L} {me t : Nat} {i : I} (hne : me ≠ t) (l : L)
    (h : P.fire c me i = some c') : P.fire (c.setTask t l) me i = some (c'.setTask t l) := by
  obtain ⟨g, l', hs, rfl⟩ := fire_eq_some.mp h
  refine fire_eq_some.mpr ⟨g, l', ?_, ?_⟩
  · rw [Config.setTask_of_ne hne]
    exact hs
  · exact congrArg (Config.mk g) (Function.update_comm hne l' l c.task)

/-- A task that has not stepped may have been any other. -/
theorem Reach.setTask {tasks : Nat → Prop} {a b : Config G L} {t : Nat} (ht : ¬ tasks t) (l : L)
    (h : P.Reach (stepsIn tasks) a b) : P.Reach (stepsIn tasks) (a.setTask t l) (b.setTask t l) := by
  induction h with
  | refl => exact .refl
  | @tail b c me i _ guard fire ih =>
    have hne : me ≠ t := by
      rintro rfl
      exact ht guard
    exact .tail ih guard (fire_setTask hne l fire)

/-- The same under a condition that does not look at the task. -/
theorem Reach.setTask_guarded {tasks : Nat → Prop} {ok : Guard G L I} {a b : Config G L} {t : Nat}
    (ht : ¬ tasks t) (l : L) (hok : ∀ c me i, me ≠ t → ok c me i → ok (c.setTask t l) me i)
    (h : P.Reach (fun c me i => tasks me ∧ ok c me i) a b) :
    P.Reach (fun c me i => tasks me ∧ ok c me i) (a.setTask t l) (b.setTask t l) := by
  induction h with
  | refl => exact .refl
  | @tail b c me i _ guard fire ih =>
    have hne : me ≠ t := by
      rintro rfl
      exact ht guard.1
    exact .tail ih ⟨guard.1, hok b me i hne guard.2⟩ (fire_setTask hne l fire)

/-! ## Schedules -/

/-- Execute a schedule; `none` when a step is not possible or not admitted. -/
def exec (P : Pool G L I) (ok : Guard G L I) [∀ c me i, Decidable (ok c me i)] :
    Config G L → List (Nat × I) → Option (Config G L)
  | c, [] => some c
  | c, (me, i) :: rest =>
    if ok c me i then (P.fire c me i).bind fun c' => P.exec ok c' rest else none

instance : ∀ (c : Config G L) (me : Nat) (i : I), Decidable (anyStep c me i) :=
  fun _ _ _ => isTrue trivial

theorem reach_of_exec {ok : Guard G L I} [∀ c me i, Decidable (ok c me i)] {a b : Config G L}
    {τ : List (Nat × I)} (h : P.exec ok a τ = some b) : P.Reach ok a b := by
  induction τ generalizing a with
  | nil =>
    obtain rfl := Option.some.inj h
    exact .refl
  | cons s rest ih =>
    obtain ⟨me, i⟩ := s
    simp only [exec] at h
    split at h
    · rename_i hok
      obtain ⟨c, hc, hrest⟩ := Option.bind_eq_some_iff.mp h
      have first : P.Reach ok a c := .tail .refl hok hc
      exact first.trans (ih hrest)
    · cases h

/-- A task that the schedule does not name stays. -/
theorem task_of_exec {ok : Guard G L I} [∀ c me i, Decidable (ok c me i)] {a b : Config G L}
    {τ : List (Nat × I)} (h : P.exec ok a τ = some b) {t : Nat} (ht : ∀ e ∈ τ, e.1 ≠ t) :
    b.task t = a.task t := by
  induction τ generalizing a with
  | nil =>
    obtain rfl := Option.some.inj h
    rfl
  | cons s rest ih =>
    obtain ⟨me, i⟩ := s
    simp only [exec] at h
    split at h
    · obtain ⟨c, hc, hrest⟩ := Option.bind_eq_some_iff.mp h
      have hne : t ≠ me := Ne.symm (ht (me, i) List.mem_cons_self)
      rw [ih hrest fun e he => ht e (List.mem_cons_of_mem _ he)]
      exact (fire_step hc).2 t hne
    · cases h

/-- A schedule that ends somewhere good. -/
theorem exists_exec (P : Pool G L I) (ok : Guard G L I) [∀ c me i, Decidable (ok c me i)]
    (a : Config G L) (τ : List (Nat × I)) (good : Config G L → Prop) [DecidablePred good]
    (h : (P.exec ok a τ).any (fun b => good b) = true) : ∃ b, P.exec ok a τ = some b ∧ good b := by
  obtain ⟨b, hb, hgood⟩ := (Option.any_eq_true ..).mp h
  exact ⟨b, hb, of_decide_eq_true hgood⟩

/-- The configuration that a schedule ends in is reachable. -/
theorem exists_reach (P : Pool G L I) (ok : Guard G L I) [∀ c me i, Decidable (ok c me i)]
    (a : Config G L) (τ : List (Nat × I)) (good : Config G L → Prop) [DecidablePred good]
    (h : (P.exec ok a τ).any (fun b => good b) = true) : ∃ b, P.Reach ok a b ∧ good b := by
  obtain ⟨b, hb, hgood⟩ := (Option.any_eq_true ..).mp h
  exact ⟨b, reach_of_exec hb, of_decide_eq_true hgood⟩

/-- The same for a run that is looked at once before its end. What the rest of it has to meet
may depend on where it begins. -/
theorem exists_reach_via (P : Pool G L I) (ok : Guard G L I) [∀ c me i, Decidable (ok c me i)]
    (ok' : Config G L → Guard G L I) [∀ b c me i, Decidable (ok' b c me i)]
    (a : Config G L) (τ₁ τ₂ : List (Nat × I)) (good₁ good₂ : Config G L → Prop)
    [DecidablePred good₁] [DecidablePred good₂]
    (h : (P.exec ok a τ₁).any
      (fun b => good₁ b ∧ (P.exec (ok' b) b τ₂).any (fun c => good₂ c) = true) = true) :
    ∃ b c, P.Reach ok a b ∧ good₁ b ∧ P.Reach (ok' b) b c ∧ good₂ c := by
  obtain ⟨b, run₁, hb, h₂⟩ := P.exists_reach ok a τ₁
    (fun b => good₁ b ∧ (P.exec (ok' b) b τ₂).any (fun c => good₂ c) = true) h
  obtain ⟨c, run₂, hc⟩ := P.exists_reach (ok' b) b τ₂ good₂ h₂
  exact ⟨b, c, run₁, hb, run₂, hc⟩

/-- The same for a run that is looked at before and after its last step. -/
theorem exists_fire (P : Pool G L I) (ok : Guard G L I) [∀ c me i, Decidable (ok c me i)]
    (a : Config G L) (τ : List (Nat × I)) (me : Nat) (i : I) (good good' : Config G L → Prop)
    [DecidablePred good] [DecidablePred good']
    (h : (P.exec ok a τ).any (fun b => good b ∧ (P.fire b me i).any (fun c => good' c) = true) =
      true) :
    ∃ b c, P.Reach ok a b ∧ good b ∧ P.fire b me i = some c ∧ good' c := by
  obtain ⟨b, run, hb, hany⟩ := P.exists_reach ok a τ
    (fun b => good b ∧ (P.fire b me i).any (fun c => good' c) = true) h
  obtain ⟨c, hf, hc⟩ := (Option.any_eq_true ..).mp hany
  exact ⟨b, c, run, hb, hf, of_decide_eq_true hc⟩

/-! ## Atomic operations -/

/-- Run sections of one task with no other task in between. -/
def runAlone (P : Pool G L I) (me : Nat) : G → L → List I → Option (G × L)
  | g, l, [] => some (g, l)
  | g, l, i :: is => (P.step me g l i).bind fun r => P.runAlone me r.1 r.2 is

/-- The pool in which a task gives way to others only where it is at rest. -/
def atomic (P : Pool G L I) (atRest : L → Bool) : Pool G L (List I) where
  step me g l is := (P.runAlone me g l is).filter fun r => atRest r.2

theorem atomic_step {atRest : L → Bool} {me : Nat} {g g' : G} {l l' : L} {is : List I} :
    (P.atomic atRest).step me g l is = some (g', l') ↔
      P.runAlone me g l is = some (g', l') ∧ atRest l' = true :=
  Option.filter_eq_some_iff

/-- Only `me` steps. -/
def stepsOf (me : Nat) : Guard G L I := fun _ t _ => t = me

theorem reach_of_runAlone {c : Config G L} {me : Nat} {g : G} {l : L} {is : List I}
    (h : P.runAlone me c.shared (c.task me) is = some (g, l)) :
    P.Reach (stepsOf me) c ⟨g, Function.update c.task me l⟩ := by
  induction is generalizing c with
  | nil =>
    obtain ⟨rfl, rfl⟩ := Prod.mk.inj (Option.some.inj h)
    rw [Function.update_eq_self]
    exact .refl
  | cons i is ih =>
    obtain ⟨⟨g₁, l₁⟩, hs, hrest⟩ := Option.bind_eq_some_iff.mp h
    have hf : P.fire c me i = some ⟨g₁, Function.update c.task me l₁⟩ :=
      fire_eq_some.mpr ⟨g₁, l₁, hs, rfl⟩
    have first : P.Reach (stepsOf me) c ⟨g₁, Function.update c.task me l₁⟩ := .tail .refl rfl hf
    have rest := ih (c := ⟨g₁, Function.update c.task me l₁⟩)
      (by simpa only [Function.update_self] using hrest)
    rw [Function.update_idem] at rest
    exact first.trans rest

/-- An operation is a run of sections of its task that ends at rest. -/
theorem reach_of_fire {atRest : L → Bool} {c c' : Config G L} {me : Nat} {is : List I}
    (hf : (P.atomic atRest).fire c me is = some c') :
    P.Reach (stepsOf me) c c' ∧ atRest (c'.task me) = true ∧ ∀ t, t ≠ me → c'.task t = c.task t := by
  obtain ⟨g, l, hs, rfl⟩ := fire_eq_some.mp hf
  obtain ⟨hrun, hrest⟩ := atomic_step.mp hs
  exact ⟨reach_of_runAlone hrun, by simpa using hrest, fun t ht => Function.update_of_ne ht ..⟩

/-- Task `me` alone gets from `l` to `l'` and the shared state from `g` to `g'`. -/
def RunsTo (P : Pool G L I) (me : Nat) (g : G) (l : L) (g' : G) (l' : L) : Prop :=
  ∃ is, P.runAlone me g l is = some (g', l')

theorem RunsTo.refl (P : Pool G L I) (me : Nat) (g : G) (l : L) : P.RunsTo me g l g l := ⟨[], rfl⟩

theorem RunsTo.head {me : Nat} {g g₁ g' : G} {l l₁ l' : L} {i : I}
    (hs : P.step me g l i = some (g₁, l₁)) (h : P.RunsTo me g₁ l₁ g' l') :
    P.RunsTo me g l g' l' := by
  obtain ⟨is, hrun⟩ := h
  refine ⟨i :: is, ?_⟩
  rw [runAlone, hs, Option.bind_some]
  exact hrun

theorem RunsTo.trans {me : Nat} {g g₁ g' : G} {l l₁ l' : L} (h₁ : P.RunsTo me g l g₁ l₁)
    (h₂ : P.RunsTo me g₁ l₁ g' l') : P.RunsTo me g l g' l' := by
  obtain ⟨is, hrun⟩ := h₁
  induction is generalizing g l with
  | nil =>
    obtain ⟨rfl, rfl⟩ := Prod.mk.inj (Option.some.inj hrun)
    exact h₂
  | cons i is ih =>
    obtain ⟨⟨g₂, l₂⟩, hs, hrest⟩ := Option.bind_eq_some_iff.mp hrun
    exact .head hs (ih hrest)

/-- Every schedule of operations is a schedule of sections. -/
theorem reach_of_atomic {atRest : L → Bool} {ok : Guard G L (List I)} {a b : Config G L}
    (h : (P.atomic atRest).Reach ok a b) : P.Reach anyStep a b := by
  induction h with
  | refl => exact .refl
  | tail _ _ hf ih => exact ih.trans ((reach_of_fire hf).1.mono fun _ _ _ _ => trivial)

end Pool

end CsmProxy.Foundations
