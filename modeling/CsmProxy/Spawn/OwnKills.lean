import CsmProxy.Spawn.Reservations

/-!
# Whom a call kills when it gives up

A `start_instance` call that gives up reaps its id, not its child. While it polls, the
id can be shut down and started again; then it kills the child of the later call
(`not_ownKills_later_start`). As long as a call that gives up finds its own child
in the table, or none, it kills no other (`ownKills_of_reapsOwn`). It does so whenever
nobody else stores a child of the id while it waits (`owner_of_leftAlone`).
-/

namespace CsmProxy

open Foundations

/-- The call, if this task is a `start_instance` call. -/
def Task.starter : Task → Option StartInstanceCall
  | .startInstance call => some call
  | _ => none

theorem Task.starter_eq_some {t : Task} {call : StartInstanceCall} :
    t.starter = some call ↔ t = .startInstance call := by
  cases t <;> simp [starter]

/-- A call that gives up finds no stored child but its own. -/
def reapsOwn (c : Config Host Task) (me : Nat) : Bool :=
  match (c.task me).starter, phases c me with
  | some _, .taking id => (c.shared.supervisor.children.lookup id).all fun child =>
      (c.shared.process.lookup child).map Process.owner = some me
  | _, _ => true

/-- The guard of the runs in which every `start_instance` call reaps its own child. -/
def ReapsOwn : Pool.Guard Host Task Choice := fun c me _ => reapsOwn c me = true

instance : ∀ (c : Config Host Task) (me : Nat) (i : Choice), Decidable (ReapsOwn c me i) :=
  fun c me _ => inferInstanceAs (Decidable (reapsOwn c me = true))

theorem owner_of_reapsOwn {c : Config Host Task} {me child : Nat} {id : String}
    (h : reapsOwn c me = true) (hcall : (c.task me).starter.isSome)
    (hme : phases c me = .taking id) (hl : c.shared.supervisor.children.lookup id = some child) :
    ∃ p, c.shared.process.lookup child = some p ∧ p.owner = me := by
  obtain ⟨call, hcall⟩ := Option.isSome_iff_exists.mp hcall
  simpa [reapsOwn, hcall, hme, hl] using h

theorem Task.step_starter {me : Nat} {h h' : Host} {t t' : Task} {i : Choice}
    (hs : t.step me h i = some (h', t')) : t'.starter.isSome = t.starter.isSome := by
  cases t <;> obtain ⟨r, -, he⟩ := Option.map_eq_some_iff.mp hs <;> cases he <;> rfl

/-- A `start_instance` call after a step: another one, or the one that stepped. -/
theorem fire_starter {c c' : Config Host Task} {me : Nat} {i : Choice}
    (hf : proxy.fire c me i = some c') {t : Nat} {call' : StartInstanceCall}
    (ht : c'.task t = .startInstance call') :
    (t ≠ me ∧ c.task t = .startInstance call') ∨
      t = me ∧ ∃ call, c.task t = .startInstance call ∧
        call.step me c.shared i = some (c'.shared, call') := by
  obtain ⟨hs, hother⟩ := fire_task hf
  by_cases htm : t = me
  · subst htm
    refine Or.inr ⟨rfl, ?_⟩
    have hstarter := Task.step_starter hs
    rw [ht] at hs hstarter
    obtain ⟨call, hcall⟩ := Option.isSome_iff_exists.mp hstarter.symm
    rw [Task.starter_eq_some.mp hcall] at hs ⊢
    obtain ⟨⟨g, call₁⟩, hp, he⟩ := Option.map_eq_some_iff.mp hs
    cases he
    exact ⟨call, rfl, hp⟩
  · exact Or.inl ⟨htm, (hother t htm).symm.trans ht⟩

namespace SpawnEffect

variable {me child : Nat} {h h' : Host} {p p' : Phase} {id : String}

/-- What a task is about to kill, it has just taken from the table. -/
theorem killing (he : SpawnEffect me h h' p p') (hp' : p' = .killing id child) :
    p = .killing id child ∨ p = .taking id ∧ h.supervisor.children.lookup id = some child := by
  cases he with
  | quiet supervisor process moves =>
    subst hp'
    cases moves
    exact Or.inl rfl
  | @take id' supervisor process =>
    cases hl : h.supervisor.children.lookup id' with
    | none =>
      rw [hl] at hp'
      cases hp'
    | some child' =>
      rw [hl] at hp'
      cases hp'
      exact Or.inr ⟨rfl, hl⟩
  | _ => cases hp'

/-- A child that is spawned and not stored was so before, or `me` has just spawned it. -/
theorem spawned (he : SpawnEffect me h h' p p') (hp' : p' = .spawned id child) :
    p = .spawned id child ∨ ∃ q, h'.process.lookup child = some q ∧ q.owner = me := by
  cases he with
  | quiet supervisor process moves =>
    subst hp'
    cases moves
    exact Or.inl rfl
  | @spawn id' child' pid supervisor unused process =>
    cases hp'
    refine Or.inr ⟨{ owner := me, instanceId := id, pid := pid }, ?_, rfl⟩
    rw [process, HashMap.lookup_insert_ite, if_pos rfl]
  | take => cases hl : h.supervisor.children.lookup _ <;> (rw [hl] at hp'; cases hp')
  | _ => cases hp'

/-- A `start` that ends after its spawn has stored its child. -/
theorem stores (he : SpawnEffect me h h' p p') (hp : p = .spawned id child)
    (hp' : p'.reserves = none) : h'.supervisor.children.lookup id = some child := by
  cases he with
  | quiet supervisor process moves =>
    subst hp
    cases moves
    cases hp'
  | store supervisor =>
    cases hp
    rw [supervisor, Supervisor.storeChild, HashMap.lookup_insert_ite, if_pos rfl]
  | _ => cases hp

/-- A signal was sent before, or `me` has just sent it. -/
theorem signalled_cases (he : SpawnEffect me h h' p p') {q' : Process} {t : Nat}
    (hl : h'.process.lookup child = some q') (hmem : t ∈ q'.signalled) :
    (∃ q, h.process.lookup child = some q ∧ q.owner = q'.owner ∧ t ∈ q.signalled) ∨
      t = me ∧ ∃ id, p = .killing id child := by
  cases he with
  | @spawn id' k pid supervisor unused process =>
    rw [process, HashMap.lookup_insert_ite] at hl
    split at hl
    · cases hl
      cases hmem
    · exact Or.inl ⟨q', hl, rfl, hmem⟩
  | @kill id' k supervisor process =>
    rw [process] at hl
    obtain ⟨q, hq, rfl | ⟨rfl, rfl⟩⟩ := HashMap.of_lookup_modify hl
    · exact Or.inl ⟨q', hq, rfl, hmem⟩
    · rcases List.mem_append.mp hmem with hmem | hmem
      · exact Or.inl ⟨q, hq, rfl, hmem⟩
      · exact Or.inr ⟨List.mem_singleton.mp hmem, id', rfl⟩
  | @exited k supervisor process =>
    rw [process] at hl
    obtain ⟨q, hq, rfl | ⟨rfl, rfl⟩⟩ := HashMap.of_lookup_modify hl
    · exact Or.inl ⟨q', hq, rfl, hmem⟩
    · exact Or.inl ⟨q, hq, rfl, hmem⟩
  | quiet _ process | reserve _ process | clear _ process | store _ process | take _ process =>
    rw [process] at hl
    exact Or.inl ⟨q', hl, rfl, hmem⟩

end SpawnEffect

/-! ## Whose child a process is -/

/-- The process is a child of task `t`. -/
def ChildOf (t : Nat) (c : Config Host Task) (child : Nat) : Prop :=
  ∃ p, c.shared.process.lookup child = some p ∧ p.owner = t

namespace ChildOf

variable {c c' : Config Host Task} {me t child : Nat} {i : Choice}

theorem fire (h : ChildOf t c child) (hf : proxy.fire c me i = some c') : ChildOf t c' child := by
  obtain ⟨p, hp, rfl⟩ := h
  obtain ⟨p', hp', hb⟩ := (fire_spawn hf).1.process_stays hp
  exact ⟨p', hp', hb.owner⟩

theorem owner (h : ChildOf t c child) {p : Process} (hp : c.shared.process.lookup child = some p) :
    p.owner = t := by
  obtain ⟨q, hq, howner⟩ := h
  obtain rfl := Option.some.inj (hp.symm.trans hq)
  exact howner

end ChildOf

/-- A task that has killed its own children only, and is about to kill one of them if any,
has killed its own children only after the step too. -/
theorem owner_of_signalled {c c' : Config Host Task} {me t child : Nat} {i : Choice}
    (hf : proxy.fire c me i = some c')
    (killing : ∀ id child, phases c t = .killing id child → ChildOf t c child)
    (signalled : ∀ child p, c.shared.process.lookup child = some p → t ∈ p.signalled → p.owner = t)
    {p' : Process} (hp' : c'.shared.process.lookup child = some p') (hmem : t ∈ p'.signalled) :
    p'.owner = t := by
  rcases (fire_spawn hf).1.signalled_cases hp' hmem with ⟨p, hp, howner, hmem⟩ | ⟨rfl, id, hkill⟩
  · exact howner.symm.trans (signalled child p hp hmem)
  · exact ((killing id child hkill).fire hf).owner hp'

/-! ## The invariant -/

/-- `start_instance` calls kill their own children, those under way included. -/
structure KillsInv (c : Config Host Task) : Prop where
  killing : ∀ t id child, (c.task t).starter.isSome → phases c t = .killing id child →
    ChildOf t c child
  signalled : ∀ t child p, (c.task t).starter.isSome → c.shared.process.lookup child = some p →
    t ∈ p.signalled → p.owner = t

namespace KillsInv

theorem of_boot {c : Config Host Task} (h : Boot c) : KillsInv c := by
  refine ⟨?_, ?_⟩
  · intro t id child _ ht
    have htakes := (h.phase t).2
    rw [ht] at htakes
    cases htakes
  · intro t child p _ hp
    rw [h.lookup_process child] at hp
    cases hp

theorem step {c c' : Config Host Task} {me : Nat} {i : Choice} (inv : KillsInv c)
    (guard : reapsOwn c me = true) (hf : proxy.fire c me i = some c') : KillsInv c' := by
  obtain ⟨he, hother⟩ := fire_spawn hf
  have starter : ∀ t, (c'.task t).starter.isSome = (c.task t).starter.isSome := by
    intro t
    obtain ⟨hs, hkeep⟩ := fire_task hf
    by_cases ht : t = me
    · subst ht
      exact Task.step_starter hs
    · rw [hkeep t ht]
  refine ⟨?_, ?_⟩
  · intro t id child hcall hpc
    rw [starter t] at hcall
    have hold : ChildOf t c child := by
      by_cases ht : t = me
      · subst ht
        rcases he.killing hpc with hold | ⟨htake, hl⟩
        · exact inv.killing t id child hcall hold
        · exact owner_of_reapsOwn guard hcall htake hl
      · rw [hother t ht] at hpc
        exact inv.killing t id child hcall hpc
    exact hold.fire hf
  · intro t child p' hcall hp' hmem
    rw [starter t] at hcall
    exact owner_of_signalled hf (fun id child => inv.killing t id child hcall)
      (fun child p => inv.signalled t child p hcall) hp' hmem

end KillsInv

/-! ## The result -/

/-- Every process that a `start_instance` call has killed was spawned by that call. -/
def OwnKills (c : Config Host Task) : Prop :=
  ∀ child p t call, c.shared.process.lookup child = some p → t ∈ p.signalled →
    c.task t = .startInstance call → p.owner = t

/-- **A call kills its own child.** Along every run in which a call that gives up finds
its own child in the table or none. -/
theorem ownKills_of_reapsOwn {c₀ c : Config Host Task} (boot : Boot c₀)
    (run : proxy.Reach ReapsOwn c₀ c) : OwnKills c := by
  have inv : KillsInv c :=
    run.invariant (.of_boot boot) fun _ _ _ _ inv guard hf => inv.step guard hf
  intro child p t call hp hmem ht
  exact inv.signalled t child p (by rw [ht]; rfl) hp hmem

/-! ## Calls that are left alone -/

/-- The child of the call is stored, and the call has not taken a child to kill it. -/
def StartInstanceCall.waits (c : StartInstanceCall) : Bool :=
  match c.pc with
  | .poll _ _ | .alive _ _ | .clock _ _ | .sleep _ _ _ | .reap _ .take => true
  | _ => false

theorem StartInstanceCall.step_waits {me : Nat} {h h' : Host} {c c' : StartInstanceCall} {i : Choice}
    (hs : c.step me h i = some (h', c')) (hw : c'.waits = true) :
    c'.args = c.args ∧ (c.waits = true ∨ ∃ child pid, c.pc = .start (.store child pid)) := by
  obtain ⟨args, pc, connectedAtSpawn, session⟩ := c
  cases pc with
  | start pc =>
    obtain ⟨⟨g, out⟩, hp, he⟩ := Option.map_eq_some_iff.mp hs
    cases he
    cases StartPc.step_section hp with
    | stored => exact ⟨rfl, .inr ⟨_, _, rfl⟩⟩
    | _ => cases hw
  | validate =>
    cases i <;> cases hs
    generalize isValidInstanceId args.instanceId = valid at hw
    cases valid <;> cases hw
  | connected => cases i <;> cases hs; cases hw
  | poll pid deadline | sleep pid deadline wake =>
    refine ⟨?_, .inl rfl⟩
    cases i <;> simp only [step] at hs
    all_goals (try split at hs) <;> cases hs <;> rfl
  | alive pid deadline | clock pid deadline =>
    refine ⟨?_, .inl rfl⟩
    cases i <;> cases hs
    rfl
  | reap err pc =>
    obtain ⟨⟨g, out⟩, hp, he⟩ := Option.map_eq_some_iff.mp hs
    cases he
    cases out with
    | none => cases hw
    | some pc' =>
      cases pc with
      | take => exact ⟨rfl, .inl rfl⟩
      | kill child =>
        cases i <;> cases hp
        cases hw
      | wait child deadline =>
        cases i <;> simp only [ReapPc.step] at hp
        case run => split at hp <;> cases hp
        all_goals cases hp
  | returned result => cases i <;> cases hs

theorem StartInstanceCall.reserves_of_waits {c : StartInstanceCall} (hw : c.waits = true) :
    (Task.startInstance c).phase.reserves = none := by
  obtain ⟨args, pc, connectedAtSpawn, session⟩ := c
  cases pc with
  | reap err pc =>
    cases pc with
    | take => rfl
    | _ => cases hw
  | poll | alive | clock | sleep => rfl
  | validate | connected | start | returned => cases hw

/-- A call that is about to take a child has waited until then. -/
theorem StartInstanceCall.waits_of_taking {c : StartInstanceCall} {id : String}
    (hp : (Task.startInstance c).phase = .taking id) : c.waits = true ∧ id = c.args.instanceId := by
  obtain ⟨args, pc, connectedAtSpawn, session⟩ := c
  cases pc with
  | reap err pc =>
    cases pc <;> cases hp
    exact ⟨rfl, rfl⟩
  | start pc => cases pc <;> cases hp
  | _ => cases hp

/-- No other task stores a child of the id of the call of task `t` while the call waits. -/
def leftAlone (t : Nat) (c : Config Host Task) (me : Nat) : Bool :=
  me = t || (c.task t).starter.all fun call => !call.waits ||
    match phases c me with
    | .spawned id _ => id ≠ call.args.instanceId
    | _ => true

/-- The guard of the runs in which the call of task `t` is left alone. -/
def LeftAlone (t : Nat) : Pool.Guard Host Task Choice := fun c me _ => leftAlone t c me = true

theorem leftAlone_spawned {t me : Nat} {c : Config Host Task} {call : StartInstanceCall}
    {id : String} {child : Nat} (h : leftAlone t c me = true) (ht : c.task t = .startInstance call)
    (hw : call.waits = true) (hme : phases c me = .spawned id child)
    (hid : id = call.args.instanceId) : me = t := by
  simpa [leftAlone, ht, Task.starter, hw, hme, hid] using h

/-- The child of the call of task `t` is where it has put it, or gone. -/
structure WaitsAlone (t : Nat) (c : Config Host Task) : Prop where
  spawned : ∀ id child, phases c t = .spawned id child → ChildOf t c child
  stored : ∀ call child, c.task t = .startInstance call → call.waits = true →
    c.shared.supervisor.children.lookup call.args.instanceId = some child → ChildOf t c child
  killing : ∀ call id child, c.task t = .startInstance call → phases c t = .killing id child →
    ChildOf t c child
  signalled : ∀ call child p, c.task t = .startInstance call →
    c.shared.process.lookup child = some p → t ∈ p.signalled → p.owner = t

namespace WaitsAlone

variable {t me : Nat} {c c' : Config Host Task} {i : Choice}

theorem of_boot (boot : Boot c) : WaitsAlone t c := by
  refine ⟨fun id child ht => ?_, fun call child ht hw => ?_, fun call id child _ ht => ?_,
    fun call child p _ hp => ?_⟩
  · have hno := (boot.phase t).1
    rw [ht] at hno
    cases hno
  · have hf := boot.fresh t
    rw [ht] at hf
    rw [StartInstanceCall.waits, congrArg StartInstanceCall.pc hf] at hw
    cases hw
  · have hno := (boot.phase t).2
    rw [ht] at hno
    cases hno
  · rw [boot.lookup_process child] at hp
    cases hp

theorem fire (inv : WaitsAlone t c) (guard : leftAlone t c me = true)
    (hf : proxy.fire c me i = some c') : WaitsAlone t c' := by
  obtain ⟨he, hother⟩ := fire_spawn hf
  refine ⟨fun id child hpc => ?_, fun call child hcall hw hl => ?_,
    fun call id child hcall hpc => ?_, fun call child p' hcall hp' hmem => ?_⟩
  · by_cases ht : t = me
    · subst ht
      rcases he.spawned hpc with hold | hnew
      · exact (inv.spawned id child hold).fire hf
      · exact hnew
    · rw [hother t ht] at hpc
      exact (inv.spawned id child hpc).fire hf
  · rcases fire_starter hf hcall with ⟨ht, hcall₀⟩ | ⟨rfl, call₀, hcall₀, hs⟩
    · rcases he.lookup_children hl with hold | ⟨hstore, -⟩
      · exact (inv.stored call child hcall₀ hw hold).fire hf
      · exact absurd (leftAlone_spawned guard hcall₀ hw hstore rfl).symm ht
    · obtain ⟨hargs, hw₀ | ⟨child₀, pid, hpc₀⟩⟩ := call₀.step_waits hs hw
      · rcases he.lookup_children hl with hold | ⟨hstore, -⟩
        · rw [hargs] at hold
          exact (inv.stored call₀ child hcall₀ hw₀ hold).fire hf
        · exact (inv.spawned _ child hstore).fire hf
      · -- The call has just stored the child it spawned.
        have hp : phases c t = .spawned call.args.instanceId child₀ := by
          simp only [phases, hcall₀, Task.phase, hpc₀, StartPc.phase, hargs]
        have hp' : (phases c' t).reserves = none := by
          rw [phases, hcall]
          exact call.reserves_of_waits hw
        obtain rfl := Option.some.inj ((he.stores hp hp').symm.trans hl)
        exact (inv.spawned _ _ hp).fire hf
  · rcases fire_starter hf hcall with ⟨ht, hcall₀⟩ | ⟨rfl, call₀, hcall₀, -⟩
    · rw [hother t ht] at hpc
      exact (inv.killing call id child hcall₀ hpc).fire hf
    · rcases he.killing hpc with hold | ⟨htake, hl⟩
      · exact (inv.killing call₀ id child hcall₀ hold).fire hf
      · rw [phases, hcall₀] at htake
        obtain ⟨hw₀, rfl⟩ := call₀.waits_of_taking htake
        exact (inv.stored call₀ child hcall₀ hw₀ hl).fire hf
  · obtain ⟨call₀, hcall₀⟩ : ∃ call₀, c.task t = .startInstance call₀ := by
      rcases fire_starter hf hcall with ⟨-, hcall₀⟩ | ⟨-, call₀, hcall₀, -⟩
      · exact ⟨call, hcall₀⟩
      · exact ⟨call₀, hcall₀⟩
    exact owner_of_signalled hf (fun id child => inv.killing call₀ id child hcall₀)
      (fun child p => inv.signalled call₀ child p hcall₀) hp' hmem

end WaitsAlone

/-- A call kills its own child whenever nobody else stores a child of its id while it
waits for the registration. -/
theorem owner_of_leftAlone {c₀ c : Config Host Task} (boot : Boot c₀) {t child : Nat}
    {call : StartInstanceCall} {p : Process} (run : proxy.Reach (LeftAlone t) c₀ c)
    (ht : c.task t = .startInstance call) (hp : c.shared.process.lookup child = some p)
    (hmem : t ∈ p.signalled) : p.owner = t := by
  have inv : WaitsAlone t c :=
    run.invariant (.of_boot boot) fun _ _ _ _ inv guard hf => inv.fire guard hf
  exact inv.signalled call child p ht hp hmem

/-! ## Runs -/

/-- Two `start_instance` calls for `a` and a `shutdown_instance` call for it. -/
def startShutdownStart : Config Host Task :=
  bootWith { binary := some "crosspoint-simulator" }
    [.startInstance { args := { instanceId := "a" } }, .shutdown (.start (some "a")),
      .startInstance { args := { instanceId := "a" } }]

theorem boot_startShutdownStart : Boot startShutdownStart :=
  boot_bootWith (by simp [Task.Fresh, ShutdownCall.start])

/-- A `start_instance` call up to its loop. -/
def startInstanceRun (me child : Nat) : List (Nat × Choice) :=
  List.replicate 7 (me, .run) ++ [(me, .spawned child 1), (me, .run)]

/-- Poll once, find that it is late, take a child and kill it. -/
def timeoutRun (me : Nat) : List (Nat × Choice) :=
  (3, .tick (millis 15000)) :: List.replicate 5 (me, .run)

/-- A call that times out alone kills the child it has spawned. -/
theorem ownKills_timeout :
    ∃ c, proxy.Reach ReapsOwn startShutdownStart c ∧
      (c.shared.process.lookup 0).map (fun p => (p.owner, p.signalled)) = some (0, [0]) ∧
      OwnKills c := by
  obtain ⟨c, run, hp⟩ := proxy.exists_reach ReapsOwn startShutdownStart
    (startInstanceRun 0 0 ++ timeoutRun 0)
    (fun c => (c.shared.process.lookup 0).map (fun p => (p.owner, p.signalled)) = some (0, [0]))
    (by decide +kernel)
  exact ⟨c, run, hp, ownKills_of_reapsOwn boot_startShutdownStart run⟩

/-- Call `0` spawns a child and waits, call `1` shuts the id down, call `2` starts it
again, and then the timeout of call `0` kills the child of call `2`. -/
theorem not_ownKills_later_start :
    ¬ ∀ c₀ c, Boot c₀ → proxy.Reach Pool.anyStep c₀ c → OwnKills c := by
  intro hall
  obtain ⟨c, run, hstarter, hp⟩ := proxy.exists_reach Pool.anyStep startShutdownStart
    (startInstanceRun 0 0 ++
      [(1, .run), (1, .run), (1, .run), (1, .run), (3, .exited 0), (1, .run)] ++
      startInstanceRun 2 1 ++ timeoutRun 0)
    (fun c => (c.task 0).starter.isSome = true ∧
      (c.shared.process.lookup 1).map (fun p => (p.owner, p.signalled)) = some (2, [0]))
    (by decide +kernel)
  obtain ⟨call, hcall⟩ := Option.isSome_iff_exists.mp hstarter
  obtain ⟨p, hl, hpair⟩ := Option.map_eq_some_iff.mp hp
  obtain ⟨howner, hsignalled⟩ := Prod.mk.inj hpair
  have hmem : 0 ∈ p.signalled := by simp [hsignalled]
  have hown := hall _ c boot_startShutdownStart run 1 p 0 call hl hmem
    (Task.starter_eq_some.mp hcall)
  omega

end CsmProxy
