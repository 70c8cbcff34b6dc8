import CsmProxy.Runtime.Footprint
import CsmProxy.Spawn.Sections

/-!
# What the tasks do to the supervisor

`start` and `reap` are called from several places: as methods of the supervisor, from
`reap_all`, from `start_instance` and from `shutdown_instance`. What the callers have
to do with the children is their `Phase`, and `SpawnEffect` says what one section can
do in each phase. Every law about reservations and children is derived from that.
-/

namespace CsmProxy

open Foundations

/-- What a task has to do with the children. -/
inductive Phase where
  /-- Before the reservation of a `start`. -/
  | checking
  /-- About to reserve. -/
  | reserving (id : String)
  | reserved (id : String)
  /-- The child runs and is not stored yet. -/
  | spawned (id : String) (child : Nat)
  /-- About to take the stored child. -/
  | taking (id : String)
  | killing (id : String) (child : Nat)
  | waiting (id : String) (child : Nat)
  | idle
deriving DecidableEq

def StartPc.phase (id : String) : StartPc → Phase
  | .check _ => .checking
  | .reserve => .reserving id
  | .store child _ => .spawned id child
  | _ => .reserved id

def ReapPc.phase (id : String) : ReapPc → Phase
  | .take => .taking id
  | .kill child => .killing id child
  | .wait child _ => .waiting id child

def Task.phase : Task → Phase
  | .supervisor (.start args pc) => pc.phase args.instanceId
  | .supervisor (.reap id pc) => pc.phase id
  | .supervisor (.reapAll (.reap id pc _)) => pc.phase id
  | .startInstance c =>
    match c.pc with
    | .validate | .connected => .checking
    | .start pc => pc.phase c.args.instanceId
    | .reap _ pc => pc.phase c.args.instanceId
    | _ => .idle
  | .shutdown c =>
    match c.pc with
    | .reap _ id pc => pc.phase id
    | _ => .idle
  | _ => .idle

namespace Phase

/-- The id that the task has reserved. -/
def reserves : Phase → Option String
  | .reserved id => some id
  | .spawned id _ => some id
  | _ => none

/-- The child that the task has taken from the table. -/
def takes : Phase → Option (String × Nat)
  | .killing id child => some (id, child)
  | .waiting id child => some (id, child)
  | _ => none

/-- The task will not spawn a child any more. -/
def Past : Phase → Prop
  | .checking | .reserving _ | .reserved _ | .spawned .. => False
  | _ => True

/-- The moves of a section that leaves the reservations and the processes alone. -/
inductive Moves : Phase → Phase → Prop
  | stays (p) : Moves p p
  | refused : Moves .checking .idle
  | checked (id) : Moves .checking (.reserving id)
  | taken (id) : Moves (.reserving id) .idle
  | begins (id) : Moves .idle (.taking id)
  | returns (id child) : Moves (.waiting id child) .idle

end Phase

/-! ## The effect of one section -/

/-- A section of task `me` in phase `p`, which ends in phase `p'`. -/
inductive SpawnEffect (me : Nat) (h h' : Host) : Phase → Phase → Prop
  /-- At most a dead child is dropped from the table. -/
  | quiet {p p'} (supervisor : h'.supervisor = h.supervisor ∨
        ∃ id, h'.supervisor = (h.supervisor.childAlive h.alive id).2)
      (process : h'.process = h.process) (moves : p.Moves p') : SpawnEffect me h h' p p'
  | reserve {id} (granted : h.supervisor.reserve h.alive id = (true, h'.supervisor))
      (process : h'.process = h.process) : SpawnEffect me h h' (.reserving id) (.reserved id)
  | spawn {id child pid} (supervisor : h'.supervisor = h.supervisor)
      (unused : h.process.lookup child = none)
      (process : h'.process = h.process.insert child { owner := me, instanceId := id, pid := pid }) :
      SpawnEffect me h h' (.reserved id) (.spawned id child)
  | clear {id} (supervisor : h'.supervisor = h.supervisor.clearStarting id)
      (process : h'.process = h.process) : SpawnEffect me h h' (.reserved id) .idle
  | store {id child} (supervisor : h'.supervisor = h.supervisor.storeChild id child)
      (process : h'.process = h.process) : SpawnEffect me h h' (.spawned id child) .idle
  | take {id} (supervisor : h'.supervisor = (h.supervisor.takeChild id).2)
      (process : h'.process = h.process) :
      SpawnEffect me h h' (.taking id)
        ((h.supervisor.children.lookup id).elim .idle (.killing id))
  | kill {id child} (supervisor : h'.supervisor = h.supervisor)
      (process : h'.process =
        h.process.modify child fun p => { p with signalled := p.signalled ++ [me] }) :
      SpawnEffect me h h' (.killing id child) (.waiting id child)
  | exited {child} (supervisor : h'.supervisor = h.supervisor)
      (process : h'.process = h.process.modify child fun p => { p with alive := false }) :
      SpawnEffect me h h' .idle .idle

/-- A section that leaves the supervisor and the processes alone. -/
theorem SpawnEffect.still {me : Nat} {h h' : Host} {p p' : Phase}
    (supervisor : h'.supervisor = h.supervisor) (process : h'.process = h.process)
    (moves : p.Moves p') : SpawnEffect me h h' p p' :=
  .quiet (Or.inl supervisor) process moves

theorem StartPc.step_spawn {args : StartArgs} {me : Nat} {h h' : Host} {pc : StartPc} {i : Choice}
    {out : StartPc ⊕ Except SpawnError UInt32} (hs : pc.step args me h i = some (h', out)) :
    SpawnEffect me h h' (pc.phase args.instanceId)
      (out.elim (StartPc.phase args.instanceId) fun _ => .idle) := by
  cases step_section hs with
  | invalidId | notConfigured | alreadyConnected => exact .still rfl rfl .refused
  | checked => exact .still rfl rfl (.checked _)
  | alreadySpawned hrefused =>
    refine .quiet ?_ rfl (.taken _)
    rcases Supervisor.reserve_eq_false hrefused with hold | hold
    · exact Or.inl hold
    · exact Or.inr ⟨_, hold⟩
  | reserved hgranted => exact .reserve hgranted rfl
  | createDir | seedBook | seedSettings => exact .still rfl rfl (.stays _)
  | spawned hunused => exact .spawn rfl hunused rfl
  | failed hop =>
    rcases hop with rfl | ⟨rfl, -⟩ | ⟨rfl, -⟩ | rfl <;> exact .still rfl rfl (.stays _)
  | cleared => exact .clear rfl rfl
  | stored => exact .store rfl rfl

theorem ReapPc.step_spawn {id : String} {me : Nat} {h h' : Host} {pc : ReapPc} {i : Choice}
    {out : Option ReapPc} (hs : pc.step id me h i = some (h', out)) :
    SpawnEffect me h h' (pc.phase id) (out.elim .idle (ReapPc.phase id)) := by
  cases pc with
  | take =>
    cases i <;> cases hs
    have heff : SpawnEffect me h { h with supervisor := (h.supervisor.takeChild id).2 } (.taking id)
        ((h.supervisor.children.lookup id).elim .idle (.killing id)) := .take rfl rfl
    change SpawnEffect me h _ _
      (((h.supervisor.children.lookup id).map ReapPc.kill).elim .idle (ReapPc.phase id))
    cases hl : h.supervisor.children.lookup id <;> (rw [hl] at heff; exact heff)
  | kill child =>
    cases i <;> cases hs
    exact .kill rfl rfl
  | wait child deadline =>
    cases i <;> simp only [step] at hs
    case run =>
      split at hs <;> cases hs
      exact .still rfl rfl (.returns _ _)
    all_goals cases hs

theorem SupervisorCall.step_spawn {me : Nat} {h h' : Host} {c c' : SupervisorCall} {i : Choice}
    (hs : c.step me h i = some (h', c')) :
    SpawnEffect me h h' (Task.supervisor c).phase (Task.supervisor c').phase := by
  cases c with
  | start args pc =>
    obtain ⟨⟨g, out⟩, hp, he⟩ := Option.map_eq_some_iff.mp hs
    cases he
    have heff := StartPc.step_spawn hp
    cases out <;> exact heff
  | reap id pc =>
    obtain ⟨⟨g, out⟩, hp, he⟩ := Option.map_eq_some_iff.mp hs
    cases he
    have heff := ReapPc.step_spawn hp
    cases out <;> exact heff
  | reapAll pc =>
    obtain ⟨⟨g, out⟩, hp, he⟩ := Option.map_eq_some_iff.mp hs
    cases he
    cases pc with
    | collect =>
      cases i <;> cases hp
      exact .still rfl rfl (.stays _)
    | next rest =>
      cases i <;> simp only [reapAllStep] at hp
      case run =>
        split at hp <;> cases hp
        exact .still rfl rfl (.stays _)
      case pickId id =>
        split at hp <;> cases hp
        exact .still rfl rfl (.begins id)
      all_goals cases hp
    | reap id pc rest =>
      obtain ⟨⟨g', out'⟩, hp', he'⟩ := Option.map_eq_some_iff.mp hp
      cases he'
      have heff := ReapPc.step_spawn hp'
      cases out' <;> exact heff
    | returned => cases i <;> cases hp
  | isAlive id =>
    cases i <;> cases hs
    exact .quiet (Or.inr ⟨id, rfl⟩) rfl (.stays _)
  | _ => cases hs

theorem StartInstanceCall.step_spawn {me : Nat} {h h' : Host} {c c' : StartInstanceCall} {i : Choice}
    (hs : c.step me h i = some (h', c')) :
    SpawnEffect me h h' (Task.startInstance c).phase (Task.startInstance c').phase := by
  obtain ⟨args, pc, connectedAtSpawn, session⟩ := c
  cases pc with
  | validate =>
    cases i <;> cases hs
    refine .still rfl rfl ?_
    generalize isValidInstanceId args.instanceId = valid
    cases valid with
    | false => exact .refused
    | true => exact .stays _
  | connected =>
    cases i <;> cases hs
    exact .still rfl rfl (.stays _)
  | start pc =>
    obtain ⟨⟨g, out⟩, hp, he⟩ := Option.map_eq_some_iff.mp hs
    cases he
    have heff := StartPc.step_spawn hp
    cases out with
    | inl pc' => exact heff
    | inr result => cases result <;> exact heff
  | poll pid deadline =>
    cases i <;> simp only [step] at hs
    case run => split at hs <;> (cases hs; exact .still rfl rfl (.stays _))
    all_goals cases hs
  | alive pid deadline =>
    cases i <;> simp only [step] at hs
    case run =>
      cases hup : h.supervisor.childAlive h.alive args.instanceId with
      | mk up supervisor =>
        rw [hup] at hs
        have hsup : supervisor = (h.supervisor.childAlive h.alive args.instanceId).2 := by rw [hup]
        cases up with
        | false =>
          cases hs
          exact .quiet (Or.inr ⟨_, hsup⟩) rfl (.begins _)
        | true =>
          cases hs
          exact .quiet (Or.inr ⟨_, hsup⟩) rfl (.stays _)
    all_goals cases hs
  | clock pid deadline =>
    cases i <;> cases hs
    refine .still rfl rfl ?_
    generalize decide (deadline ≤ h.now) = late
    cases late with
    | false => exact .stays _
    | true => exact .begins _
  | sleep pid deadline wake =>
    cases i <;> simp only [step] at hs
    case run =>
      split at hs <;> cases hs
      exact .still rfl rfl (.stays _)
    all_goals cases hs
  | reap err pc =>
    obtain ⟨⟨g, out⟩, hp, he⟩ := Option.map_eq_some_iff.mp hs
    cases he
    have heff := ReapPc.step_spawn hp
    cases out <;> exact heff
  | returned result => cases i <;> cases hs

theorem ShutdownCall.step_spawn {me : Nat} {h h' : Host} {c c' : ShutdownCall} {i : Choice}
    (hs : c.step me h i = some (h', c')) :
    SpawnEffect me h h' (Task.shutdown c).phase (Task.shutdown c').phase := by
  obtain ⟨instanceId, pc⟩ := c
  cases pc with
  | enqueue pc =>
    obtain ⟨m, hm⟩ := EnqueuePc.step_footprint false .shutdown h pc
    cases i <;> simp only [step] at hs
    case run =>
      split at hs <;>
        (rename_i he
         rw [he] at hm
         cases hs
         cases hm
         exact .still rfl rfl (.stays _))
    all_goals cases hs
  | choose queued =>
    cases i <;> simp only [step] at hs
    case run =>
      split at hs <;> cases hs
      · exact .still rfl rfl (.begins _)
      · exact .still rfl rfl (.stays _)
    all_goals cases hs
  | reap queued id pc =>
    obtain ⟨⟨g, out⟩, hp, he⟩ := Option.map_eq_some_iff.mp hs
    cases he
    have heff := ReapPc.step_spawn hp
    cases out <;> exact heff
  | returned queued => cases i <;> cases hs

theorem Task.step_spawn {me : Nat} {h h' : Host} {t t' : Task} {i : Choice}
    (hs : t.step me h i = some (h', t')) : SpawnEffect me h h' t.phase t'.phase := by
  cases t with
  | environment =>
    obtain ⟨g, hp, he⟩ := Option.map_eq_some_iff.mp hs
    cases he
    cases i <;> simp only [environmentStep] at hp
    case exited child =>
      cases hp
      exact .exited rfl rfl
    all_goals (cases hp; try exact .still rfl rfl (.stays _))
  | supervisor c =>
    obtain ⟨⟨g, c'⟩, hp, he⟩ := Option.map_eq_some_iff.mp hs
    cases he
    exact SupervisorCall.step_spawn hp
  | startInstance c =>
    obtain ⟨⟨g, c'⟩, hp, he⟩ := Option.map_eq_some_iff.mp hs
    cases he
    exact StartInstanceCall.step_spawn hp
  | shutdown c =>
    obtain ⟨⟨g, c'⟩, hp, he⟩ := Option.map_eq_some_iff.mp hs
    cases he
    exact ShutdownCall.step_spawn hp
  | _ =>
    obtain ⟨⟨g, c'⟩, hp, he⟩ := Option.map_eq_some_iff.mp hs
    cases he
    first
      | obtain ⟨m, o, rfl⟩ := Session.step_footprint hp; exact .still rfl rfl (.stays _)
      | obtain ⟨m, o, rfl⟩ := SendCall.step_footprint hp; exact .still rfl rfl (.stays _)
      | obtain ⟨m, p, rfl⟩ := ObserveCall.step_footprint hp; exact .still rfl rfl (.stays _)
      | obtain ⟨m, rfl⟩ := ViewCall.step_footprint hp; exact .still rfl rfl (.stays _)
      | obtain ⟨m, rfl⟩ := EnqueueCall.step_footprint hp; exact .still rfl rfl (.stays _)

/-- The phases of a configuration, by task number. -/
def phases (c : Config Host Task) (t : Nat) : Phase := (c.task t).phase

/-- One step of the proxy changes the phase of the task that steps, as its effect says. -/
theorem fire_spawn {c c' : Config Host Task} {me : Nat} {i : Choice}
    (hf : proxy.fire c me i = some c') :
    SpawnEffect me c.shared c'.shared (phases c me) (phases c' me) ∧
      ∀ t, t ≠ me → phases c' t = phases c t := by
  obtain ⟨hs, hother⟩ := fire_task hf
  exact ⟨Task.step_spawn hs, fun t ht => congrArg Task.phase (hother t ht)⟩

end CsmProxy
