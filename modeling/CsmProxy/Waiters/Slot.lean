import CsmProxy.Runtime.SendAndWait

/-!
# One waiter

The waiter of one call, seen by itself: where its call is, whether each of the two tables
has it, and what the pushes and the removals that can touch it are about to do.
`Slot.Step` lists the sections that change it, and `Slot.Core` holds of every waiter in
every run.
-/

namespace CsmProxy

/-- What happens to the waiters. -/
inductive WaiterEvent where
  /-- The call of task `k` stored its waiter. -/
  | registered (k : Nat)
  /-- The request of the call of task `k` was put on the outbound queue. -/
  | queued (k : Nat)
  /-- The timeout of the call of task `k` fired. -/
  | timedOut (k : Nat)
  /-- Push `p` looked for the waiter of its envelope. -/
  | pushed (p : Nat) (msg : SimToServer)
  /-- Push `p` sent its envelope to the call of task `k`. -/
  | handed (p k : Nat)
deriving DecidableEq

/-! ## Where the call is -/

namespace SendPc

/-- No waiter is stored yet. -/
def fresh : SendPc → Bool
  | .get | .insertWaiter => true
  | _ => false

/-- The instance of the waiter is not recorded yet. -/
def registering : SendPc → Bool
  | .get | .insertWaiter | .insertInstance => true
  | _ => false

/-- A waiter is stored, and the call has not begun to take it out. -/
def waits : SendPc → Bool
  | .insertInstance | .trySend | .await _ | .forget _ => true
  | _ => false

/-- The instance of the waiter is recorded, and the call has not deleted it. -/
def records : SendPc → Bool
  | .trySend | .await _ | .forget _ => true
  | _ => false

def ended : SendPc → Bool
  | .returned _ => true
  | _ => false

theorem waits_of_records {pc : SendPc} (h : pc.records = true) : pc.waits = true := by
  cases pc <;> first | rfl | cases h

end SendPc

/-! ## The waiter -/

/-- What a push does with the sender of the call. -/
inductive Grip where
  | free
  /-- It has taken the sender for this envelope. -/
  | taken (msg : SimToServer)
  /-- It has also deleted the instance of the waiter. -/
  | forgotten (msg : SimToServer)
deriving DecidableEq

/-- A waiter. `listed r` and `taking r` say that removal `r` has its corr among those
still to take, and that it is between the two tables of `take_waiter`. -/
@[ext]
structure Slot where
  pc : SendPc
  waiter : Bool
  recorded : Bool
  oneshot : Oneshot
  grip : Nat → Grip
  listed : Nat → Bool
  taking : Nat → Bool

namespace Slot

/-- The waiter of a call that has not begun. -/
def initial : Slot where
  pc := .get
  waiter := false
  recorded := false
  oneshot := .waiting
  grip := fun _ => .free
  listed := fun _ => false
  taking := fun _ => false

/-- The stored sender is dropped, if it is stored. -/
def unregister (s : Slot) : Slot :=
  { s with waiter := false, oneshot := if s.waiter then .dropped else s.oneshot }

/-- A section that leaves the waiter of `k` alone. -/
def Idle (k : Nat) (answers : SimToServer → Bool) (s : Slot) : Option WaiterEvent → Prop
  | none => True
  | some (.registered k') | some (.queued k') | some (.timedOut k') | some (.handed _ k') => k' ≠ k
  | some (.pushed _ msg) => answers msg = true → s.waiter = false

/-- The sections as the waiter of `k` sees them, with the event each one is. -/
inductive Step (k : Nat) (answers : SimToServer → Bool) : Option WaiterEvent → Slot → Slot → Prop
  | connected {s : Slot} (hpc : s.pc = .get) : Step k answers none s { s with pc := .insertWaiter }
  | unknown {s : Slot} (hpc : s.pc = .get) :
    Step k answers none s { s with pc := .returned (.error .unknownInstance) }
  | insertWaiter {s : Slot} (hpc : s.pc = .insertWaiter) :
    Step k answers (some (.registered k)) s
      { s.unregister with pc := .insertInstance, waiter := true }
  | insertInstance {s : Slot} (hpc : s.pc = .insertInstance) :
    Step k answers none s { s with pc := .trySend, recorded := true }
  | sent {s : Slot} (deadline : Nat) (hpc : s.pc = .trySend) :
    Step k answers (some (.queued k)) s { s with pc := .await deadline }
  | refused {s : Slot} {err : WaitError} (hpc : s.pc = .trySend)
    (herr : err = .unknownInstance ∨ err = .queueFull) :
    Step k answers none s { s with pc := .forget err }
  | forget {s : Slot} {err : WaitError} (hpc : s.pc = .forget err) :
    Step k answers none s { s with pc := .take err, recorded := false }
  | take {s : Slot} {err : WaitError} (hpc : s.pc = .take err) :
    Step k answers none s { s.unregister with pc := .returned (.error err) }
  | reply {s : Slot} {deadline : Nat} {via : String} {msg : SimToServer}
    (hpc : s.pc = .await deadline) (ho : s.oneshot = .sent via msg) :
    Step k answers none s { s with pc := .returned (.ok msg) }
  | lost {s : Slot} {deadline : Nat} (hpc : s.pc = .await deadline) (ho : s.oneshot = .dropped) :
    Step k answers none s { s with pc := .returned (.error .disconnected) }
  | timeout {s : Slot} {deadline : Nat} (hpc : s.pc = .await deadline)
    (ho : s.oneshot = .waiting) :
    Step k answers (some (.timedOut k)) s { s with pc := .forget .timeout }
  | complete {s : Slot} {p : Nat} {msg : SimToServer} (hw : s.waiter = true)
    (hans : answers msg = true) (hp : s.grip p = .free) :
    Step k answers (some (.pushed p msg)) s
      { s with waiter := false, grip := Function.update s.grip p (.taken msg) }
  | delete {s : Slot} {p : Nat} {msg : SimToServer} (hp : s.grip p = .taken msg) :
    Step k answers none s
      { s with recorded := false, grip := Function.update s.grip p (.forgotten msg) }
  | hand {s : Slot} {p : Nat} {msg : SimToServer} (via : String)
    (hp : s.grip p = .forgotten msg) :
    Step k answers (some (.handed p k)) s
      { s with oneshot := .sent via msg, grip := Function.update s.grip p .free }
  | collect {s : Slot} {r : Nat} :
    Step k answers none s { s with listed := Function.update s.listed r s.recorded }
  | skip {s : Slot} {r : Nat} :
    Step k answers none s { s with listed := Function.update s.listed r false }
  | pick {s : Slot} {r : Nat} (hr : s.listed r = true) :
    Step k answers none s { s with
      recorded := false
      listed := Function.update s.listed r false
      taking := Function.update s.taking r true }
  | fail {s : Slot} {r : Nat} (hr : s.taking r = true) :
    Step k answers none s { s.unregister with taking := Function.update s.taking r false }
  | idle {s : Slot} {e : Option WaiterEvent} (he : s.Idle k answers e) : Step k answers e s s

theorem Step.to {k : Nat} {answers : SimToServer → Bool} {e : Option WaiterEvent}
    {s s₁ s' : Slot} (h : Step k answers e s s₁) (he : s' = s₁) : Step k answers e s s' := by
  rw [he]
  exact h

theorem Step.same {k : Nat} {answers : SimToServer → Bool} {e : Option WaiterEvent}
    {s s' : Slot} (he : s.Idle k answers e) (hs : s' = s) : Step k answers e s s' := by
  rw [hs]
  exact .idle he

/-! ## What holds of every waiter -/

/-- A stored waiter can be completed; a sender that was taken out is with one push, or its
channel is settled. -/
structure Core (s : Slot) : Prop where
  fresh : s.pc.fresh = true → s.waiter = false ∧ s.oneshot = .waiting ∧ ∀ p, s.grip p = .free
  stored : s.waiter = true → s.oneshot = .waiting ∧ (∀ p, s.grip p = .free) ∧ s.pc.ended = false
  held : ∀ p, s.grip p ≠ .free → s.waiter = false ∧ s.oneshot = .waiting ∧
    ∀ p', s.grip p' ≠ .free → p' = p
  unstored : s.waiter = false → s.pc.waits = true →
    s.oneshot ≠ .waiting ∨ ∃ p, s.grip p ≠ .free

namespace Core

variable {k : Nat} {answers : SimToServer → Bool} {s s' : Slot}

theorem of_initial : initial.Core :=
  ⟨fun _ => ⟨rfl, rfl, fun _ => rfl⟩, nofun, fun _ hp => absurd rfl hp, nofun⟩

theorem not_stored_of_settled (core : s.Core) (ho : s.oneshot ≠ .waiting) : s.waiter = false := by
  by_contra hw
  exact ho (core.stored (Bool.eq_true_of_not_eq_false hw)).1

/-- The call moves on and the waiter stays. -/
theorem move (core : s.Core) (hw : s'.waiter = s.waiter) (ho : s'.oneshot = s.oneshot)
    (hg : s'.grip = s.grip) (hfresh : s'.pc.fresh = true → s.pc.fresh = true)
    (hended : s'.pc.ended = true → s.waiter = false)
    (hwaits : s'.pc.waits = true → s.pc.waits = true) : s'.Core := by
  refine ⟨?_, ?_, ?_, ?_⟩
  · intro h
    rw [hw, ho, hg]
    exact core.fresh (hfresh h)
  · intro h
    rw [hw] at h
    rw [ho, hg]
    obtain ⟨hwaiting, hfree, -⟩ := core.stored h
    refine ⟨hwaiting, hfree, ?_⟩
    by_contra hc
    rw [hended (Bool.eq_true_of_not_eq_false hc)] at h
    cases h
  · rw [hw, ho, hg]
    exact core.held
  · intro h hpc
    rw [hw] at h
    rw [ho, hg]
    exact core.unstored h (hwaits hpc)

/-- The call stays where it is. -/
theorem stay (core : s.Core) (hpc : s'.pc = s.pc) (hw : s'.waiter = s.waiter)
    (ho : s'.oneshot = s.oneshot) (hg : s'.grip = s.grip) : s'.Core := by
  have hended : s.pc.ended = true → s.waiter = false := by
    intro h
    by_contra hc
    have hnot := (core.stored (Bool.eq_true_of_not_eq_false hc)).2.2
    rw [h] at hnot
    cases hnot
  apply core.move hw ho hg <;> rw [hpc]
  · exact id
  · exact hended
  · exact id

/-- The stored sender is dropped. -/
theorem unregister (core : s.Core) (hw : s'.waiter = false)
    (ho : s'.oneshot = if s.waiter then .dropped else s.oneshot) (hg : s'.grip = s.grip)
    (hfresh : s'.pc.fresh = true → s.pc.fresh = true)
    (hwaits : s'.pc.waits = true → s.pc.waits = true) : s'.Core := by
  cases hwaiter : s.waiter with
  | false =>
    rw [hwaiter, if_neg Bool.false_ne_true] at ho
    exact core.move (hw.trans hwaiter.symm) ho hg hfresh (fun _ => hwaiter) hwaits
  | true =>
    rw [hwaiter, if_pos rfl] at ho
    obtain ⟨-, hfree, -⟩ := core.stored hwaiter
    refine ⟨?_, ?_, ?_, ?_⟩
    · intro h
      rw [(core.fresh (hfresh h)).1] at hwaiter
      cases hwaiter
    · intro h
      rw [hw] at h
      cases h
    · intro p hp
      rw [hg] at hp
      exact absurd (hfree p) hp
    · intro _ _
      rw [ho]
      exact .inl (by simp)

/-- The call stores its waiter. -/
theorem insertWaiter (core : s.Core) (hpc : s.pc = .insertWaiter) :
    ({ s.unregister with pc := .insertInstance, waiter := true } : Slot).Core := by
  obtain ⟨hwaiter, ho, hfree⟩ := core.fresh (by rw [hpc]; rfl)
  have ho' : (if s.waiter = true then .dropped else s.oneshot) = Oneshot.waiting := by
    rw [hwaiter, if_neg Bool.false_ne_true]
    exact ho
  exact ⟨nofun, fun _ => ⟨ho', hfree, rfl⟩, fun p hp => absurd (hfree p) hp, nofun⟩

/-- A push takes the sender out. -/
theorem complete (core : s.Core) {p : Nat} {msg : SimToServer} (hw : s.waiter = true) :
    ({ s with waiter := false, grip := Function.update s.grip p (.taken msg) } : Slot).Core := by
  obtain ⟨ho, hfree, -⟩ := core.stored hw
  have hp : ∀ p', Function.update s.grip p (.taken msg) p' ≠ .free → p' = p := by
    intro p' hp'
    by_contra hne
    rw [Function.update_of_ne hne] at hp'
    exact hp' (hfree p')
  refine ⟨?_, nofun, ?_, ?_⟩
  · intro h
    rw [(core.fresh h).1] at hw
    cases hw
  · intro p' hp'
    refine ⟨rfl, ho, fun p'' hp'' => ?_⟩
    rw [hp p' hp', hp p'' hp'']
  · intro _ _
    refine .inr ⟨p, ?_⟩
    simp

/-- A push deletes the instance of the waiter that it took. -/
theorem delete (core : s.Core) {p : Nat} {msg : SimToServer} (hp : s.grip p ≠ .free) :
    ({ s with recorded := false, grip := Function.update s.grip p (.forgotten msg) } : Slot).Core := by
  have hheld : ∀ p', Function.update s.grip p (.forgotten msg) p' ≠ .free ↔ s.grip p' ≠ .free := by
    intro p'
    by_cases hne : p' = p
    · subst hne
      rw [Function.update_self]
      simp [hp]
    · rw [Function.update_of_ne hne]
  refine ⟨?_, ?_, ?_, ?_⟩
  · intro h
    exact absurd ((core.fresh h).2.2 p) hp
  · intro h
    exact absurd ((core.stored h).2.1 p) hp
  · intro p' hp'
    obtain ⟨hw, ho, honly⟩ := core.held p' ((hheld p').mp hp')
    exact ⟨hw, ho, fun p'' hp'' => honly p'' ((hheld p'').mp hp'')⟩
  · intro _ _
    exact .inr ⟨p, (hheld p).mpr hp⟩

/-- A push sends its envelope. -/
theorem hand (core : s.Core) {p : Nat} {via : String} {msg : SimToServer}
    (hp : s.grip p ≠ .free) :
    ({ s with
      oneshot := .sent via msg
      grip := Function.update s.grip p .free } : Slot).Core := by
  obtain ⟨hw, -, honly⟩ := core.held p hp
  have hfree : ∀ p', Function.update s.grip p .free p' = .free := by
    intro p'
    by_cases hne : p' = p
    · rw [hne, Function.update_self]
    · rw [Function.update_of_ne hne]
      by_contra hp'
      exact hne (honly p' hp')
  refine ⟨?_, ?_, fun p' hp' => absurd (hfree p') hp', fun _ _ => .inl (by simp)⟩
  · intro h
    exact absurd ((core.fresh h).2.2 p) hp
  · intro h
    rw [hw] at h
    cases h

theorem step (core : s.Core) {e : Option WaiterEvent} (hs : Step k answers e s s') : s'.Core := by
  cases hs with
  | connected hpc => exact core.move rfl rfl rfl (fun _ => by rw [hpc]; rfl) nofun nofun
  | unknown hpc => exact core.move rfl rfl rfl nofun (fun _ => (core.fresh (by rw [hpc]; rfl)).1) nofun
  | insertWaiter hpc => exact core.insertWaiter hpc
  | insertInstance hpc => exact core.move rfl rfl rfl nofun nofun (fun _ => by rw [hpc]; rfl)
  | sent deadline hpc => exact core.move rfl rfl rfl nofun nofun (fun _ => by rw [hpc]; rfl)
  | refused hpc _ => exact core.move rfl rfl rfl nofun nofun (fun _ => by rw [hpc]; rfl)
  | forget hpc => exact core.move rfl rfl rfl nofun nofun nofun
  | take hpc => exact core.unregister rfl rfl rfl nofun nofun
  | reply hpc ho =>
    exact core.move rfl rfl rfl nofun (fun _ => core.not_stored_of_settled (by simp [ho])) nofun
  | lost hpc ho =>
    exact core.move rfl rfl rfl nofun (fun _ => core.not_stored_of_settled (by simp [ho])) nofun
  | timeout hpc ho => exact core.move rfl rfl rfl nofun nofun (fun _ => by rw [hpc]; rfl)
  | complete hw _ _ => exact core.complete hw
  | delete hp => exact core.delete (by simp [hp])
  | hand via hp => exact core.hand (by simp [hp])
  | collect => exact core.stay rfl rfl rfl rfl
  | skip => exact core.stay rfl rfl rfl rfl
  | pick hr => exact core.stay rfl rfl rfl rfl
  | fail hr => exact core.unregister rfl rfl rfl id id
  | idle he => exact core

end Core

end Slot

end CsmProxy
