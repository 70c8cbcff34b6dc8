import CsmProxy.Instances.InstanceMap

/-!
# The spawn supervisor

The tables of `SpawnSupervisor` in `spawn.rs`, with its critical sections: the
reservations of `start` (`starting`) and the stored children. A `Child` handle is
the number of its process. `try_wait` on a handle reports the exit status (or
fails, once somebody has collected it) exactly when the process is gone, so the
sections take a test `alive` of processes.
-/

namespace CsmProxy

open Foundations

/-- `SpawnConfig`; durations are in nanoseconds. -/
structure SpawnConfig where
  binary : Option String := none
  wait : Nat := 15000000000
  autoSleepDefault : Bool := false
  observeWaitMs : UInt32 := 8000
deriving DecidableEq, Repr

inductive SpawnError where
  | notConfigured
  | invalidId
  | alreadyConnected
  | alreadySpawned
  | spawnFailed (message : String)
  | exitedBeforeRegister
  | registerTimeout
deriving DecidableEq, Repr

/-- `SpawnError::as_str` -/
def SpawnError.asStr : SpawnError → String
  | .notConfigured => "spawn is not configured; set --simulator / CSM_SIMULATOR"
  | .invalidId => "instance_id is required (1-64 bytes)"
  | .alreadyConnected => "instance is already connected"
  | .alreadySpawned => "instance is already spawned"
  | .spawnFailed message => "failed to start simulator: " ++ message
  | .exitedBeforeRegister => "simulator exited before register"
  | .registerTimeout => "timed out waiting for register"

/-- `Inner` -/
structure Supervisor where
  children : HashMap String Nat := ∅
  starting : Finset String := ∅

namespace Supervisor

/-- `child_alive`: a child that is gone is dropped from the table. -/
def childAlive (alive : Nat → Bool) (s : Supervisor) (id : String) : Bool × Supervisor :=
  match s.children.lookup id with
  | none => (false, s)
  | some child =>
    if alive child then (true, s)
    else (false, { s with children := s.children.erase id })

/-- The reservation of `start`; `false` is `AlreadySpawned`. -/
def reserve (alive : Nat → Bool) (s : Supervisor) (id : String) : Bool × Supervisor :=
  if id ∈ s.starting then (false, s)
  else
    let (up, s) := s.childAlive alive id
    if up then (false, s) else (true, { s with starting := insert id s.starting })

/-- `clear_starting` -/
def clearStarting (s : Supervisor) (id : String) : Supervisor :=
  { s with starting := s.starting.erase id }

/-- The last section of `start`: from `starting` to `children`. -/
def storeChild (s : Supervisor) (id : String) (child : Nat) : Supervisor where
  children := s.children.insert id child
  starting := s.starting.erase id

/-- The section of `reap`: the child that was stored. -/
def takeChild (s : Supervisor) (id : String) : Option Nat × Supervisor :=
  (s.children.lookup id, ⟨s.children.erase id, s.starting.erase id⟩)

theorem childAlive_starting (alive : Nat → Bool) (s : Supervisor) (id : String) :
    (s.childAlive alive id).2.starting = s.starting := by
  unfold childAlive
  split
  · rfl
  · split <;> rfl

/-- The liveness check only ever removes a dead child of the id it asks about. -/
theorem lookup_childAlive (alive : Nat → Bool) (s : Supervisor) (id id' : String) :
    (s.childAlive alive id).2.children.lookup id' = s.children.lookup id' ∨
      (id' = id ∧ (s.childAlive alive id).2.children.lookup id' = none ∧
        ∃ child, s.children.lookup id = some child ∧ alive child = false) := by
  unfold childAlive
  split
  · exact Or.inl rfl
  · rename_i child hc
    split
    · exact Or.inl rfl
    · rename_i hdead
      simp only [HashMap.lookup_erase_ite]
      by_cases h : id' = id
      · exact Or.inr ⟨h, if_pos h, child, hc, by simpa using hdead⟩
      · exact Or.inl (if_neg h)

theorem childAlive_eq_false {alive : Nat → Bool} {s : Supervisor} {id : String}
    (h : (s.childAlive alive id).1 = false) :
    (s.childAlive alive id).2.children.lookup id = none := by
  unfold childAlive at h ⊢
  split
  · assumption
  · rename_i child hc
    rw [hc] at h
    split
    · rename_i hup
      simp [hup] at h
    · exact (HashMap.lookup_erase_ite ..).trans (if_pos rfl)

theorem childAlive_eq_true {alive : Nat → Bool} {s : Supervisor} {id : String}
    (h : (s.childAlive alive id).1 = true) :
    ∃ child, s.children.lookup id = some child ∧ alive child = true := by
  unfold childAlive at h
  split at h
  · cases h
  · rename_i child hc
    split at h
    · rename_i hup
      exact ⟨child, hc, hup⟩
    · cases h

/-- A granted reservation was free, and no stored child of the id is left. -/
theorem reserve_eq_true {alive : Nat → Bool} {s s' : Supervisor} {id : String}
    (h : s.reserve alive id = (true, s')) :
    id ∉ s.starting ∧ s'.starting = insert id s.starting ∧ s'.children.lookup id = none ∧
      s'.children = (s.childAlive alive id).2.children := by
  unfold reserve at h
  split at h
  · cases h
  · rename_i hfree
    dsimp only at h
    split at h
    · cases h
    · rename_i hup
      obtain rfl := (Prod.mk.inj h).2
      exact ⟨hfree, congrArg (insert id) (childAlive_starting alive s id),
        childAlive_eq_false (by simpa using hup), rfl⟩

/-- A refused reservation leaves the reservations alone. -/
theorem reserve_eq_false {alive : Nat → Bool} {s s' : Supervisor} {id : String}
    (h : s.reserve alive id = (false, s')) :
    s' = s ∨ s' = (s.childAlive alive id).2 := by
  unfold reserve at h
  split at h
  · exact Or.inl (Prod.mk.inj h).2.symm
  · dsimp only at h
    split at h
    · exact Or.inr (Prod.mk.inj h).2.symm
    · cases h

/-- A reservation is refused because of another one, or because of a live child. -/
theorem of_reserve_eq_false {alive : Nat → Bool} {s s' : Supervisor} {id : String}
    (h : s.reserve alive id = (false, s')) :
    id ∈ s.starting ∨ ∃ child, s.children.lookup id = some child ∧ alive child = true := by
  unfold reserve at h
  split at h
  · rename_i hheld
    exact Or.inl hheld
  · dsimp only at h
    split at h
    · rename_i hup
      exact Or.inr (childAlive_eq_true hup)
    · cases h

end Supervisor

end CsmProxy
