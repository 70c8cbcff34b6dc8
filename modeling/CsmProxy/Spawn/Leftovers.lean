import CsmProxy.Spawn.Reservations

/-!
# What a `start` leaves behind

`start` reserves its id, then creates directories, writes files and spawns the binary, and
every one of these operations can fail. However the call ends, it has given its
reservation back, and of the children it has at most dropped a dead one of its own id, or
stored the one that it has spawned.

* `reservation_held`: in every run, a reservation belongs to a call that is under way.
* `StartPc.Since`: what a call has done so far; `StartPc.step_since` is its step lemma.
* `noneLeft_of_rest`: what any call of `start` leaves, whenever no other call is under way.
-/

namespace CsmProxy

open Foundations

/-! ## Reservations belong to calls -/

/-- Every reservation in the table belongs to a call of `start` that is under way. -/
def ReservationsHeld (c : Config Host Task) : Prop :=
  ∀ id ∈ c.shared.supervisor.starting, ∃ t, (phases c t).reserves = some id

namespace ReservationsHeld

theorem of_boot {c : Config Host Task} (boot : Boot c) : ReservationsHeld c := by
  intro id hid
  obtain ⟨default, config, now, hshared⟩ := boot.shared
  rw [hshared] at hid
  exact absurd hid (Finset.notMem_empty id)

theorem step {c c' : Config Host Task} {me : Nat} {i : Choice} (held : ReservationsHeld c)
    (hf : proxy.fire c me i = some c') : ReservationsHeld c' := by
  intro id hid
  obtain ⟨he, hother⟩ := fire_spawn hf
  rcases he.starting_cases hid with ⟨hold, hkeeps⟩ | ⟨-, hnew⟩
  · obtain ⟨t, ht⟩ := held id hold
    by_cases htm : t = me
    · subst htm
      exact ⟨t, hkeeps ht⟩
    · exact ⟨t, (congrArg Phase.reserves (hother t htm)).trans ht⟩
  · exact ⟨me, hnew⟩

/-- Whoever interleaves. -/
theorem of_reach {c₀ c : Config Host Task} (boot : Boot c₀) (run : proxy.Reach Pool.anyStep c₀ c) :
    ReservationsHeld c :=
  run.invariant (of_boot boot) fun _ _ _ _ held _ hf => held.step hf

end ReservationsHeld

/-- No call of `start` is between its reservation and its end. -/
def AtRest (c : Config Host Task) : Prop := ∀ t, (phases c t).reserves = none

theorem Boot.rest {c : Config Host Task} (boot : Boot c) : AtRest c := fun t => (boot.phase t).1

theorem AtRest.starting {c : Config Host Task} (rest : AtRest c) (held : ReservationsHeld c) :
    c.shared.supervisor.starting = ∅ := by
  refine Finset.eq_empty_of_forall_notMem fun id hid => ?_
  obtain ⟨t, ht⟩ := held id hid
  rw [rest t] at ht
  cases ht

/-! ## What happens to processes -/

theorem Process.Becomes.trans {p q r : Process} (h₁ : p.Becomes q) (h₂ : q.Becomes r) :
    p.Becomes r where
  owner := h₂.owner.trans h₁.owner
  instanceId := h₂.instanceId.trans h₁.instanceId
  pid := h₂.pid.trans h₁.pid
  alive h := h₁.alive (h₂.alive h)
  signalled := h₁.signalled.trans h₂.signalled

/-- From `h` to `h'` processes exit and nothing else happens to them. -/
structure Host.Exits (h h' : Host) : Prop where
  unused : ∀ child, h.process.lookup child = none → h'.process.lookup child = none
  stays : ∀ child p, h.process.lookup child = some p →
    ∃ p', h'.process.lookup child = some p' ∧ p.Becomes p'

namespace Host.Exits

variable {h h₁ h' : Host}

theorem of_process (hp : h'.process = h.process) : h.Exits h' := by
  refine ⟨fun child hnone => ?_, fun child p hl => ⟨p, ?_, .refl p⟩⟩
  · rw [hp, hnone]
  · rw [hp, hl]

theorem trans (h₁' : h.Exits h₁) (h₂ : h₁.Exits h') : h.Exits h' := by
  refine ⟨fun child hnone => h₂.unused child (h₁'.unused child hnone), fun child p hl => ?_⟩
  obtain ⟨q, hq, hpq⟩ := h₁'.stays child p hl
  obtain ⟨r, hr, hqr⟩ := h₂.stays child q hq
  exact ⟨r, hr, hpq.trans hqr⟩

/-- A process that is alive at the end was alive all the time. -/
theorem alive (hx : h.Exits h') {child : Nat} (hup : h'.alive child = true) :
    h.alive child = true := by
  obtain ⟨p', hp', hup'⟩ := Host.alive_iff.mp hup
  cases hl : h.process.lookup child with
  | none =>
    rw [hx.unused child hl] at hp'
    cases hp'
  | some p =>
    obtain ⟨q, hq, hb⟩ := hx.stays child p hl
    obtain rfl := Option.some.inj (hp'.symm.trans hq)
    exact Host.alive_iff.mpr ⟨p, hl, hb.alive hup'⟩

theorem dead (hx : h.Exits h') {child : Nat} (hdown : h.alive child = false) :
    h'.alive child = false := by
  refine Bool.eq_false_iff.mpr fun hup => ?_
  rw [hx.alive hup] at hdown
  cases hdown

end Host.Exits

/-- Only a call that has reserved its id spawns a process. -/
theorem SpawnEffect.exits {me : Nat} {h h' : Host} {p p' : Phase} (he : SpawnEffect me h h' p p')
    (hp : p.reserves = none) : h.Exits h' := by
  refine ⟨fun child hnone => ?_, fun child q hl => he.process_stays hl⟩
  refine Option.eq_none_iff_forall_ne_some.mpr fun q' hl' => ?_
  rcases he.process_cases hl' with ⟨q, hl, -⟩ | ⟨id, pid, rfl, -⟩
  · rw [hnone] at hl
    cases hl
  · cases hp

/-! ## While a call is under way -/

/-- The children differ at most by the removal of a dead child of `id`. -/
def DropsDead (id : String) (h h' : Host) : Prop :=
  ∀ id', h'.supervisor.children.lookup id' = h.supervisor.children.lookup id' ∨
    id' = id ∧ h'.supervisor.children.lookup id' = none ∧
      ∃ child, h.supervisor.children.lookup id = some child ∧ h'.alive child = false

/-- The call has reserved `id` and touched no other id. -/
structure Holding (id : String) (h h' : Host) : Prop where
  free : id ∉ h.supervisor.starting
  starting : h'.supervisor.starting = insert id h.supervisor.starting
  others : ∀ id', id' ≠ id →
    h'.supervisor.children.lookup id' = h.supervisor.children.lookup id'

/-- Task `me` has spawned `child` for `id` since `h`. -/
def NewChild (me : Nat) (id : String) (child : Nat) (pid : UInt32) (h h' : Host) : Prop :=
  h.process.lookup child = none ∧ ∃ p, h'.process.lookup child = some p ∧
    p.owner = me ∧ p.instanceId = id ∧ p.pid = pid

/-- A live child of `id` is stored. -/
def Host.HasChild (h : Host) (id : String) : Prop :=
  ∃ child, h.supervisor.children.lookup id = some child ∧ h.alive child = true

structure FailedStart (id : String) (err : SpawnError) (h h' : Host) : Prop where
  starting : h'.supervisor.starting = h.supervisor.starting
  children : DropsDead id h h'
  refused : err = .alreadySpawned → id ∈ h.supervisor.starting ∨ h.HasChild id

structure DoneStart (me : Nat) (id : String) (pid : UInt32) (h h' : Host) : Prop where
  starting : h'.supervisor.starting = h.supervisor.starting
  free : id ∉ h'.supervisor.starting
  others : ∀ id', id' ≠ id →
    h'.supervisor.children.lookup id' = h.supervisor.children.lookup id'
  child : ∃ child, h'.supervisor.children.lookup id = some child ∧ NewChild me id child pid h h'

/-- What a call of `start(id)` of task `me` leaves behind. -/
def StartLeaves (me : Nat) (id : String) (h h' : Host) : Except SpawnError UInt32 → Prop
  | .error err => FailedStart id err h h'
  | .ok pid => DoneStart me id pid h h'

/-- What a call of `start(id)` of task `me` has done since `h`. -/
def StartPc.Since (me : Nat) (id : String) (h h' : Host) : StartPc → Prop
  | .check _ | .reserve => h'.supervisor = h.supervisor ∧ h.Exits h'
  | .store child pid => Holding id h h' ∧ NewChild me id child pid h h'
  | _ => Holding id h h' ∧ DropsDead id h h' ∧ h.Exits h'

/-! ### Sections of the call -/

section

variable {me : Nat} {id : String} {h₀ h h' : Host}

theorem DropsDead.of_eq (hs : h.supervisor = h₀.supervisor) : DropsDead id h₀ h :=
  fun _ => Or.inl (by rw [hs])

/-- The liveness check before the reservation. -/
theorem DropsDead.of_check {s : Supervisor} (hs : h.supervisor = h₀.supervisor)
    (hchildren : s.children = (h.supervisor.childAlive h.alive id).2.children) :
    DropsDead id h₀ { h with supervisor := s } := by
  intro id'
  rcases Supervisor.lookup_childAlive h.alive h.supervisor id id' with heq | ⟨hid, hnone, hdead⟩
  · refine Or.inl ?_
    change s.children.lookup id' = _
    rw [hchildren, heq, hs]
  · refine Or.inr ⟨hid, ?_, ?_⟩
    · change s.children.lookup id' = none
      rw [hchildren, hnone]
    · rw [← hs]
      exact hdead

theorem DropsDead.others (hd : DropsDead id h₀ h) {id' : String} (hne : id' ≠ id) :
    h.supervisor.children.lookup id' = h₀.supervisor.children.lookup id' := by
  rcases hd id' with heq | ⟨hid, -⟩
  · exact heq
  · exact absurd hid hne

theorem Holding.of_granted {s : Supervisor} (hs : h.supervisor = h₀.supervisor)
    (granted : h.supervisor.reserve h.alive id = (true, s)) :
    Holding id h₀ { h with supervisor := s } ∧ DropsDead id h₀ { h with supervisor := s } := by
  obtain ⟨hfree, hstarting, -, hchildren⟩ := Supervisor.reserve_eq_true granted
  have hdrops : DropsDead id h₀ { h with supervisor := s } := .of_check hs hchildren
  rw [hs] at hfree hstarting
  exact ⟨⟨hfree, hstarting, fun _ hne => hdrops.others hne⟩, hdrops⟩

theorem FailedStart.of_refused {s : Supervisor} (hs : h.supervisor = h₀.supervisor)
    (hx : h₀.Exits h) (refused : h.supervisor.reserve h.alive id = (false, s)) :
    FailedStart id .alreadySpawned h₀ { h with supervisor := s } where
  starting := by
    rcases Supervisor.reserve_eq_false refused with rfl | rfl
    · exact congrArg Supervisor.starting hs
    · rw [← hs]
      exact Supervisor.childAlive_starting ..
  children := by
    rcases Supervisor.reserve_eq_false refused with rfl | rfl
    · exact .of_eq hs
    · exact .of_check hs rfl
  refused _ := by
    rcases Supervisor.of_reserve_eq_false refused with hheld | ⟨child, hl, hup⟩
    · exact Or.inl (hs ▸ hheld)
    · exact Or.inr ⟨child, hs ▸ hl, hx.alive hup⟩

/-- A call that fails before the reservation. -/
theorem FailedStart.of_unreserved {err : SpawnError} (hs : h.supervisor = h₀.supervisor)
    (herr : err ≠ .alreadySpawned) : FailedStart id err h₀ h where
  starting := by rw [hs]
  children := .of_eq hs
  refused hspawned := absurd hspawned herr

theorem FailedStart.of_cleared {err : String} (hold : Holding id h₀ h) (hdrops : DropsDead id h₀ h) :
    FailedStart id (.spawnFailed err) h₀
      { h with supervisor := h.supervisor.clearStarting id } where
  starting := by
    change h.supervisor.starting.erase id = _
    rw [hold.starting, Finset.erase_insert hold.free]
  children := hdrops
  refused hspawned := by cases hspawned

theorem DoneStart.of_stored {child : Nat} {pid : UInt32} (hold : Holding id h₀ h)
    (hnew : NewChild me id child pid h₀ h) :
    DoneStart me id pid h₀ { h with supervisor := h.supervisor.storeChild id child } where
  starting := by
    change h.supervisor.starting.erase id = _
    rw [hold.starting, Finset.erase_insert hold.free]
  free := Finset.notMem_erase id h.supervisor.starting
  others id' hne := by
    change (h.supervisor.children.insert id child).lookup id' = _
    rw [HashMap.lookup_insert_ite, if_neg hne, hold.others id' hne]
  child := by
    refine ⟨child, ?_, hnew⟩
    change (h.supervisor.children.insert id child).lookup id = some child
    rw [HashMap.lookup_insert_ite, if_pos rfl]

end

/-- One section of the call: it goes on, or it has returned and leaves what it should. -/
theorem StartPc.step_since {args : StartArgs} {me : Nat} {h₀ h h' : Host} {pc : StartPc} {i : Choice}
    {out : StartPc ⊕ Except SpawnError UInt32} (hs : pc.step args me h i = some (h', out))
    (since : pc.Since me args.instanceId h₀ h) :
    out.elim (StartPc.Since me args.instanceId h₀ h') (StartLeaves me args.instanceId h₀ h') := by
  cases step_section hs with
  | invalidId | notConfigured | alreadyConnected => exact .of_unreserved since.1 (by simp)
  | checked => exact since
  | alreadySpawned hrefused => exact .of_refused since.1 since.2 hrefused
  | reserved hgranted =>
    obtain ⟨hold, hdrops⟩ := Holding.of_granted since.1 hgranted
    exact ⟨hold, hdrops, since.2.trans (.of_process rfl)⟩
  | createDir | seedBook | seedSettings => exact since
  | @spawned child pid hunused =>
    obtain ⟨hold, -, hx⟩ := since
    refine ⟨⟨hold.free, hold.starting, hold.others⟩, ?_,
      { owner := me, instanceId := args.instanceId, pid := pid }, ?_, rfl, rfl, rfl⟩
    · cases hl : h₀.process.lookup child with
      | none => rfl
      | some p =>
        obtain ⟨p', hp', -⟩ := hx.stays child p hl
        rw [hunused] at hp'
        cases hp'
    · exact (HashMap.lookup_insert_ite ..).trans (if_pos rfl)
  | failed hop => rcases hop with rfl | ⟨rfl, -⟩ | ⟨rfl, -⟩ | rfl <;> exact since
  | cleared => exact .of_cleared since.1 since.2.1
  | stored => exact .of_stored since.1 since.2

/-! ### Sections of the other tasks -/

section

variable {me : Nat} {id : String} {h₀ h h' : Host}

theorem DropsDead.frame (hd : DropsDead id h₀ h) (hs : h'.supervisor = h.supervisor)
    (hx : h.Exits h') : DropsDead id h₀ h' := by
  intro id'
  rw [hs]
  rcases hd id' with heq | ⟨hid, hnone, child, hl, hdown⟩
  · exact Or.inl heq
  · exact Or.inr ⟨hid, hnone, child, hl, hx.dead hdown⟩

theorem Holding.frame (hold : Holding id h₀ h) (hs : h'.supervisor = h.supervisor) :
    Holding id h₀ h' := by
  refine ⟨hold.free, ?_, ?_⟩
  · rw [hs, hold.starting]
  · rw [hs]
    exact hold.others

theorem NewChild.frame {child : Nat} {pid : UInt32} (hn : NewChild me id child pid h₀ h)
    (hx : h.Exits h') : NewChild me id child pid h₀ h' := by
  obtain ⟨hnone, p, hp, howner, hid, hpid⟩ := hn
  obtain ⟨p', hp', hb⟩ := hx.stays child p hp
  exact ⟨hnone, p', hp', hb.owner.trans howner, hb.instanceId.trans hid, hb.pid.trans hpid⟩

theorem StartLeaves.frame {result : Except SpawnError UInt32}
    (hl : StartLeaves me id h₀ h result) (hs : h'.supervisor = h.supervisor) (hx : h.Exits h') :
    StartLeaves me id h₀ h' result := by
  cases result with
  | error err =>
    obtain ⟨hstarting, hdrops, hrefused⟩ := hl
    exact ⟨by rw [hs, hstarting], hdrops.frame hs hx, hrefused⟩
  | ok pid =>
    obtain ⟨hstarting, hfree, hothers, child, hchild, hnew⟩ := hl
    refine ⟨by rw [hs, hstarting], by rwa [hs], ?_, child, by rwa [hs], hnew.frame hx⟩
    rw [hs]
    exact hothers

theorem StartPc.Since.frame {pc : StartPc} (since : pc.Since me id h₀ h)
    (hs : h'.supervisor = h.supervisor) (hx : h.Exits h') : pc.Since me id h₀ h' := by
  cases pc with
  | check connected | reserve => exact ⟨hs.trans since.1, since.2.trans hx⟩
  | store child pid => exact ⟨since.1.frame hs, since.2.frame hx⟩
  | createDir | seedBook | seedSettings | exec | clear err =>
    exact ⟨since.1.frame hs, since.2.1.frame hs hx, since.2.2.trans hx⟩

end

/-- The task calls methods of the supervisor. -/
def Task.usesSupervisor : Task → Bool
  | .supervisor _ | .startInstance _ | .shutdown _ => true
  | _ => false

theorem Task.phase_of_uses {t : Task} (h : t.usesSupervisor = false) : t.phase = .idle := by
  cases t with
  | supervisor call | startInstance call | shutdown call => cases h
  | _ => rfl

/-- A task of another kind leaves the supervisor alone and stays of that kind. -/
theorem Task.step_unused {me : Nat} {h h' : Host} {t t' : Task} {i : Choice}
    (hs : t.step me h i = some (h', t')) (hu : t.usesSupervisor = false) :
    h'.supervisor = h.supervisor ∧ t'.usesSupervisor = false := by
  cases t with
  | supervisor call | startInstance call | shutdown call => cases hu
  | environment =>
    obtain ⟨g, hp, he⟩ := Option.map_eq_some_iff.mp hs
    cases he
    cases i <;> cases hp <;> exact ⟨rfl, rfl⟩
  | _ =>
    obtain ⟨⟨g, c'⟩, hp, he⟩ := Option.map_eq_some_iff.mp hs
    cases he
    refine ⟨?_, rfl⟩
    first
      | obtain ⟨m, o, rfl⟩ := Session.step_footprint hp; rfl
      | obtain ⟨m, o, rfl⟩ := SendCall.step_footprint hp; rfl
      | obtain ⟨m, p, rfl⟩ := ObserveCall.step_footprint hp; rfl
      | obtain ⟨m, rfl⟩ := ViewCall.step_footprint hp; rfl
      | obtain ⟨m, rfl⟩ := EnqueueCall.step_footprint hp; rfl

/-! ## Runs of one call -/

/-- Of the tasks that use the supervisor only `me` steps. -/
def CallAlone (me : Nat) : Pool.Guard Host Task Choice :=
  fun c t _ => t = me ∨ (c.task t).usesSupervisor = false

instance (me : Nat) : ∀ (c : Config Host Task) (t : Nat) (i : Choice),
    Decidable (CallAlone me c t i) :=
  fun c t _ => inferInstanceAs (Decidable (t = me ∨ (c.task t).usesSupervisor = false))

/-- What task `me`, a call of `start` with `args`, has done since `h`. -/
def Task.Since (me : Nat) (args : StartArgs) (h h' : Host) : Task → Prop
  | .supervisor (.start args' pc) => args' = args ∧ pc.Since me args.instanceId h h'
  | .supervisor (.started args' result) =>
    args' = args ∧ StartLeaves me args.instanceId h h' result
  | _ => False

section

variable {c₀ c c' : Config Host Task} {me : Nat} {args : StartArgs}

theorem Task.Since.frame {h₀ h h' : Host} {t : Task} (since : t.Since me args h₀ h)
    (hs : h'.supervisor = h.supervisor) (hx : h.Exits h') : t.Since me args h₀ h' := by
  unfold Task.Since at since ⊢
  split at since
  · exact ⟨since.1, since.2.frame hs hx⟩
  · exact ⟨since.1, since.2.frame hs hx⟩
  · exact since.elim

theorem Task.Since.step {h₀ h h' : Host} {t t' : Task} {i : Choice} (since : t.Since me args h₀ h)
    (hs : t.step me h i = some (h', t')) : t'.Since me args h₀ h' := by
  unfold Task.Since at since
  split at since
  · rename_i args' pc
    obtain ⟨rfl, since⟩ := since
    obtain ⟨⟨g, call⟩, hcall, he⟩ := Option.map_eq_some_iff.mp hs
    cases he
    obtain ⟨⟨g', out⟩, hp, he⟩ := Option.map_eq_some_iff.mp hcall
    cases he
    have hleaves := StartPc.step_since hp since
    cases out <;> exact ⟨rfl, hleaves⟩
  · cases i <;> cases hs
  · exact since.elim

/-- Along a run of the call. -/
theorem Task.Since.of_reach (run : proxy.Reach (CallAlone me) c c') {connected : Bool}
    (hcall : c.task me = .supervisor (.start args (.check connected))) :
    (c'.task me).Since me args c.shared c'.shared := by
  induction run with
  | refl =>
    rw [hcall]
    exact ⟨rfl, rfl, .of_process rfl⟩
  | @tail c₁ c₂ t i _ guard hf since =>
    obtain ⟨hs, hother⟩ := fire_task hf
    by_cases ht : t = me
    · subst ht
      exact since.step hs
    · have hu := guard.resolve_left ht
      have hidle : (phases c₁ t).reserves = none := by rw [phases, Task.phase_of_uses hu]; rfl
      rw [hother me fun h => ht h.symm]
      exact since.frame (Task.step_unused hs hu).1 ((fire_spawn hf).1.exits hidle)

/-- A call that runs alone leaves the other tasks at rest. -/
theorem AtRest.others (rest : AtRest c) (run : proxy.Reach (CallAlone me) c c') :
    ∀ t, t ≠ me → (phases c' t).reserves = none := by
  induction run with
  | refl => exact fun t _ => rest t
  | @tail c₁ c₂ s i _ guard hf ih =>
    intro t ht
    obtain ⟨hs, hother⟩ := fire_task hf
    by_cases hts : t = s
    · subst hts
      have hu := guard.resolve_left ht
      rw [phases, Task.phase_of_uses (Task.step_unused hs hu).2]
      rfl
    · rw [phases, hother t hts]
      exact ih t ht

theorem AtRest.after_call (rest : AtRest c) (run : proxy.Reach (CallAlone me) c c')
    (returned : (phases c' me).reserves = none) : AtRest c' := by
  intro t
  by_cases ht : t = me
  · rw [ht, returned]
  · exact rest.others run t ht

end

/-! ## The result -/

/-- What holds when no call of `start` is under way: nothing is reserved; a call of `start`
that runs alone from here leaves nothing reserved, whatever fails on the way, and is
refused as already spawned only if a live child of its id is stored; and when any call that
runs alone has returned, no call is under way again. -/
structure NoneLeft (c : Config Host Task) : Prop where
  empty : c.shared.supervisor.starting = ∅
  start : ∀ me args connected c' result,
    c.task me = .supervisor (.start args (.check connected)) → proxy.Reach (CallAlone me) c c' →
    c'.task me = .supervisor (.started args result) →
      StartLeaves me args.instanceId c.shared c'.shared result ∧
        (result = .error .alreadySpawned → c.shared.HasChild args.instanceId)
  rest : ∀ me c', proxy.Reach (CallAlone me) c c' → (phases c' me).reserves = none → AtRest c'

/-- **A failed start leaves no reservation.** In every state between the calls of `start`,
in particular between calls that are made one after the other. -/
theorem noneLeft_of_rest {c₀ c : Config Host Task} (boot : Boot c₀)
    (run : proxy.Reach Pool.anyStep c₀ c) (rest : AtRest c) : NoneLeft c := by
  have empty : c.shared.supervisor.starting = ∅ := rest.starting (.of_reach boot run)
  refine ⟨empty, ?_, fun me c' halone hreturned => rest.after_call halone hreturned⟩
  intro me args connected c' result hcall halone hreturned
  have since := Task.Since.of_reach halone hcall
  rw [hreturned] at since
  refine ⟨since.2, ?_⟩
  rintro rfl
  refine (since.2.refused rfl).resolve_left fun hheld => ?_
  rw [empty] at hheld
  exact Finset.notMem_empty _ hheld

/-- Two starts of `a`, with nothing to write. -/
def startTwice : Config Host Task :=
  bootWith { binary := some "crosspoint-simulator" }
    (List.replicate 2 (.supervisor (.start { instanceId := "a" } (.check false))))

theorem boot_startTwice : Boot startTwice :=
  boot_bootWith (by simp [Task.Fresh])

/-- The binary cannot be executed: the first start fails after everything else is done. -/
theorem noneLeft_exec :
    ∃ c, c.task 0 = .supervisor
        (.started { instanceId := "a" } (.error (.spawnFailed "No such file or directory"))) ∧
      FailedStart "a" (.spawnFailed "No such file or directory") startTwice.shared c.shared ∧
      NoneLeft c := by
  have first : NoneLeft startTwice := noneLeft_of_rest boot_startTwice .refl boot_startTwice.rest
  obtain ⟨c, run, hreturned⟩ := proxy.exists_reach (CallAlone 0) startTwice
    [(0, .run), (0, .run), (0, .run), (0, .run), (0, .run),
      (0, .fails "No such file or directory"), (0, .run)]
    (fun c => c.task 0 = .supervisor
      (.started { instanceId := "a" } (.error (.spawnFailed "No such file or directory"))))
    (by decide +kernel)
  have leaves := (first.start 0 _ _ c _ rfl run hreturned).1
  have rest : AtRest c := first.rest 0 c run (by rw [phases, hreturned]; rfl)
  have run' : proxy.Reach Pool.anyStep startTwice c := run.mono fun _ _ _ _ => trivial
  exact ⟨c, hreturned, leaves, noneLeft_of_rest boot_startTwice run' rest⟩

end CsmProxy
