import CsmProxy.Spawn.Reservations

/-!
# At most one child per id

`reap` removes the reservation of its id whoever holds it, and it takes a live child
out of the table before it kills it. In both cases a second `start` of the id finds
nothing and goes on to spawn (`not_oneChild_reaped_start`). As long as no reap clears
a reservation, and no reservation is granted while a live process of the id is not in the
table, an id has one reservation and one live process (`oneChild_of_startsAlone`).
-/

namespace CsmProxy

open Foundations

/-- The live processes that were started for `id`. -/
def Host.running (h : Host) (id : String) : Finset Nat :=
  h.process.keysWhere fun p => p.alive && p.instanceId = id

theorem Host.mem_running {h : Host} {id : String} {child : Nat} :
    child ∈ h.running id ↔
      ∃ p, h.process.lookup child = some p ∧ p.alive = true ∧ p.instanceId = id := by
  simp [running, HashMap.mem_keysWhere]

/-- Every live process of `id` is the stored child. -/
def Host.allStored (h : Host) (id : String) : Bool :=
  decide (∀ child ∈ h.running id, h.supervisor.children.lookup id = some child)

theorem Host.allStored_iff {h : Host} {id : String} :
    h.allStored id = true ↔
      ∀ child ∈ h.running id, h.supervisor.children.lookup id = some child :=
  decide_eq_true_iff

/-- A reap finds no `start` in the middle, and a reservation that is granted finds no live
process outside the table. -/
def startsAlone (c : Config Host Task) (me : Nat) : Bool :=
  match phases c me with
  | .taking id => id ∉ c.shared.supervisor.starting
  | .reserving id => !(c.shared.supervisor.reserve c.shared.alive id).1 || c.shared.allStored id
  | _ => true

/-- The guard of the runs in which starts and reaps of one id keep out of each other's way. -/
def StartsAlone : Pool.Guard Host Task Choice := fun c me _ => startsAlone c me = true

instance : ∀ (c : Config Host Task) (me : Nat) (i : Choice), Decidable (StartsAlone c me i) :=
  fun c me _ => inferInstanceAs (Decidable (startsAlone c me = true))

theorem clearsNothing_of_startsAlone {c : Config Host Task} {me : Nat} (h : startsAlone c me = true) :
    clearsNothing c me := by
  intro id hme
  simpa [startsAlone, hme] using h

theorem allStored_of_startsAlone {c : Config Host Task} {me : Nat} {id : String} {s : Supervisor}
    (h : startsAlone c me = true) (hme : phases c me = .reserving id)
    (granted : c.shared.supervisor.reserve c.shared.alive id = (true, s)) :
    c.shared.allStored id = true := by
  simpa [startsAlone, hme, granted] using h

/-- A granted reservation whose live processes are all stored finds none. -/
theorem running_of_granted {h : Host} {s : Supervisor} {id : String} {child : Nat}
    (granted : h.supervisor.reserve h.alive id = (true, s)) (stored : h.allStored id = true) :
    child ∉ h.running id := by
  intro hrun
  have hl := Host.allStored_iff.mp stored child hrun
  obtain ⟨p, hp, hup, -⟩ := Host.mem_running.mp hrun
  obtain ⟨-, -, hnone, hchildren⟩ := Supervisor.reserve_eq_true granted
  rw [hchildren] at hnone
  rcases Supervisor.lookup_childAlive h.alive h.supervisor id id with heq | ⟨-, -, k, hk, hdead⟩
  · rw [← heq, hnone] at hl
    cases hl
  · obtain rfl := Option.some.inj (hl.symm.trans hk)
    rw [Host.alive_iff.mpr ⟨p, hp, hup⟩] at hdead
    cases hdead

/-! ## The invariant -/

/-- A task with a reservation has the id for itself. -/
structure ExclusiveInv (c : Config Host Task) : Prop where
  reserved : ReservedInv c
  free : ∀ t id, (phases c t).reserves = some id → c.shared.supervisor.children.lookup id = none
  own : ∀ t id child, (phases c t).reserves = some id → child ∈ c.shared.running id →
    phases c t = .spawned id child
  one : ∀ id child child', child ∈ c.shared.running id → child' ∈ c.shared.running id → child = child'

namespace ExclusiveInv

theorem of_boot {c : Config Host Task} (h : Boot c) : ExclusiveInv c := by
  refine ⟨.of_boot h, fun t id hr => absurd hr (h.not_reserves t id),
    fun t id child hr => absurd hr (h.not_reserves t id), ?_⟩
  intro id child child' hrun
  obtain ⟨p, hp, -⟩ := Host.mem_running.mp hrun
  rw [h.lookup_process child] at hp
  cases hp

/-- A live process was live before, or `me` has just spawned it. -/
theorem running_cases {c c' : Config Host Task} {me child : Nat} {id : String}
    (he : SpawnEffect me c.shared c'.shared (phases c me) (phases c' me))
    (hrun : child ∈ c'.shared.running id) :
    child ∈ c.shared.running id ∨
      phases c me = .reserved id ∧ phases c' me = .spawned id child := by
  obtain ⟨p', hp', hup, hid⟩ := Host.mem_running.mp hrun
  rcases he.process_cases hp' with ⟨p, hp, hb⟩ | ⟨id', pid, hpc, hpc', -, rfl⟩
  · exact Or.inl (Host.mem_running.mpr ⟨p, hp, hb.alive hup, hb.instanceId.symm.trans hid⟩)
  · subst hid
    exact Or.inr ⟨hpc, hpc'⟩

section

variable {c c' : Config Host Task} {me : Nat} {i : Choice}

/-- A reservation is old, or `me` has just got it and found no live process. -/
theorem granted_cases (guard : startsAlone c me = true) (hf : proxy.fire c me i = some c') {t : Nat}
    {id : String} (hr : (phases c' t).reserves = some id) :
    (phases c t).reserves = some id ∨ t = me ∧
      c'.shared.supervisor.children.lookup id = none ∧ ∀ child, child ∉ c'.shared.running id := by
  obtain ⟨he, hother⟩ := fire_spawn hf
  by_cases ht : t = me
  · subst ht
    rcases he.reserves hr with hold | ⟨hme, hme', granted, hprocess⟩
    · exact Or.inl hold
    · refine Or.inr ⟨rfl, (Supervisor.reserve_eq_true granted).2.2.1, fun child hrun => ?_⟩
      have hrun' : child ∈ c.shared.running id := by
        rw [Host.running, hprocess] at hrun
        exact hrun
      exact running_of_granted granted (allStored_of_startsAlone guard hme granted) hrun'
  · rw [hother t ht] at hr
    exact Or.inl hr

theorem step_free (inv : ExclusiveInv c) (guard : startsAlone c me = true)
    (hf : proxy.fire c me i = some c') {t : Nat} {id : String}
    (hr : (phases c' t).reserves = some id) :
    c'.shared.supervisor.children.lookup id = none := by
  rcases granted_cases guard hf hr with hold | ⟨-, hnone, -⟩
  · refine Option.eq_none_iff_forall_ne_some.mpr fun child hl => ?_
    rcases (fire_spawn hf).1.lookup_children hl with hl | ⟨hme, hme'⟩
    · rw [inv.free t id hold] at hl
      cases hl
    · obtain rfl := inv.reserved.unique t me id hold (by rw [hme]; rfl)
      rw [hme'] at hr
      cases hr
  · exact hnone

theorem step_own (inv : ExclusiveInv c) (reserved : ReservedInv c') (guard : startsAlone c me = true)
    (hf : proxy.fire c me i = some c') {t child : Nat} {id : String}
    (hr : (phases c' t).reserves = some id) (hrun : child ∈ c'.shared.running id) :
    phases c' t = .spawned id child := by
  obtain ⟨he, hother⟩ := fire_spawn hf
  rcases granted_cases guard hf hr with hold | ⟨-, -, hno⟩
  · rcases running_cases he hrun with hrun | ⟨hme, hme'⟩
    · have hown := inv.own t id child hold hrun
      by_cases ht : t = me
      · subst ht
        rcases he.reserves_stays hold hr with hstay | hres
        · exact hstay.trans hown
        · rw [hown] at hres
          cases hres
      · exact (hother t ht).trans hown
    · obtain rfl := reserved.unique t me id hr (by rw [hme']; rfl)
      exact hme'
  · exact absurd hrun (hno child)

theorem step_one (inv : ExclusiveInv c) (hf : proxy.fire c me i = some c') {id : String}
    {child child' : Nat} (hrun : child ∈ c'.shared.running id)
    (hrun' : child' ∈ c'.shared.running id) : child = child' := by
  obtain ⟨he, -⟩ := fire_spawn hf
  have apart : ∀ k, phases c me = .reserved id → k ∉ c.shared.running id := by
    intro k hme hk
    have hown := inv.own me id k (by rw [hme]; rfl) hk
    rw [hme] at hown
    cases hown
  rcases running_cases he hrun with hold | ⟨hme, hnew⟩ <;>
    rcases running_cases he hrun' with hold' | ⟨hme', hnew'⟩
  · exact inv.one id child child' hold hold'
  · exact absurd hold (apart child hme')
  · exact absurd hold' (apart child' hme)
  · rw [hnew] at hnew'
    cases hnew'
    rfl

/-- An admitted section keeps the invariant. -/
theorem step (inv : ExclusiveInv c) (guard : startsAlone c me = true)
    (hf : proxy.fire c me i = some c') : ExclusiveInv c' := by
  have reserved : ReservedInv c' := inv.reserved.step (clearsNothing_of_startsAlone guard) hf
  refine ⟨reserved, ?_, ?_, ?_⟩
  · intro t id hr
    exact inv.step_free guard hf hr
  · intro t id child hr hrun
    exact inv.step_own reserved guard hf hr hrun
  · intro id child child' hrun hrun'
    exact inv.step_one hf hrun hrun'

end

theorem of_reach {c₀ c : Config Host Task} (boot : Boot c₀) (run : proxy.Reach StartsAlone c₀ c) :
    ExclusiveInv c :=
  run.invariant (of_boot boot) fun _ _ _ _ inv guard hf => inv.step guard hf

end ExclusiveInv

/-! ## The result -/

/-- An id has one reservation and one live process, and a `start` that is about to
store its child does not replace a live one. -/
structure OneChild (c : Config Host Task) : Prop where
  reservation : ∀ t t' id, (phases c t).reserves = some id → (phases c t').reserves = some id → t = t'
  process : ∀ child child' p p', c.shared.process.lookup child = some p →
    c.shared.process.lookup child' = some p' → p.alive = true → p'.alive = true →
    p.instanceId = p'.instanceId → child = child'
  store : ∀ t id child child', phases c t = .spawned id child →
    c.shared.supervisor.children.lookup id = some child' → c.shared.alive child' = false

/-- **One child per id.** Along every run in which starts and reaps of one id keep out
of each other's way. -/
theorem oneChild_of_startsAlone {c₀ c : Config Host Task} (boot : Boot c₀)
    (run : proxy.Reach StartsAlone c₀ c) : OneChild c := by
  have inv := ExclusiveInv.of_reach boot run
  refine ⟨inv.reserved.unique, ?_, ?_⟩
  · intro child child' p p' hp hp' hup hup' hid
    exact inv.one p'.instanceId child child' (Host.mem_running.mpr ⟨p, hp, hup, hid⟩)
      (Host.mem_running.mpr ⟨p', hp', hup', rfl⟩)
  · intro t id child child' ht hl
    have hnone := inv.free t id (by rw [ht]; rfl)
    rw [hnone] at hl
    cases hl

/-- A configured supervisor and calls of its methods. -/
def bootCalls (calls : List SupervisorCall) : Config Host Task :=
  bootWith { binary := some "crosspoint-simulator" } (calls.map .supervisor)

/-- The sections of a `start` up to its spawn. -/
def spawnRun (me child : Nat) : List (Nat × Choice) :=
  [(me, .run), (me, .run), (me, .run), (me, .run), (me, .run), (me, .spawned child 1)]

/-- A start of `a`, a reap of `a`, and another start of `a`. -/
def startReapStart : Config Host Task :=
  bootCalls [.start { instanceId := "a" } (.check false), .reap "a" .take,
    .start { instanceId := "a" } (.check false)]

theorem boot_startReapStart : Boot startReapStart :=
  boot_bootWith (by simp [Task.Fresh])

/-- One after the other: the first child is stored, killed and gone before the second
one is spawned. -/
theorem oneChild_restart :
    ∃ c, proxy.Reach StartsAlone startReapStart c ∧ c.shared.running "a" = {1} ∧ OneChild c := by
  obtain ⟨c, run, hrunning⟩ := proxy.exists_reach StartsAlone startReapStart
    (spawnRun 0 0 ++ [(0, .run), (1, .run), (1, .run), (3, .exited 0), (1, .run)] ++ spawnRun 2 1)
    (fun c => c.shared.running "a" = {1}) (by decide +kernel)
  exact ⟨c, run, hrunning, oneChild_of_startsAlone boot_startReapStart run⟩

/-- The reap falls between the spawn and the store of the first start. -/
theorem not_oneChild_reaped_start :
    ¬ ∀ c₀ c, Boot c₀ → proxy.Reach Pool.anyStep c₀ c → OneChild c := by
  intro hall
  obtain ⟨c, run, hrunning⟩ := proxy.exists_reach Pool.anyStep startReapStart
    (spawnRun 0 0 ++ [(1, .run)] ++ spawnRun 2 1)
    (fun c => c.shared.running "a" = {0, 1}) (by decide +kernel)
  have one := hall _ c boot_startReapStart run
  have h₀ : 0 ∈ c.shared.running "a" := by simp [hrunning]
  have h₁ : 1 ∈ c.shared.running "a" := by simp [hrunning]
  obtain ⟨p, hp, hup, hid⟩ := Host.mem_running.mp h₀
  obtain ⟨p', hp', hup', hid'⟩ := Host.mem_running.mp h₁
  have heq := one.process 0 1 p p' hp hp' hup hup' (hid.trans hid'.symm)
  cases heq

end CsmProxy
