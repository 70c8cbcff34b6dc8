import CsmProxy.Foundations.TaskPool
import CsmProxy.Runtime.SendAndWait
import CsmProxy.Runtime.Session
import CsmProxy.Runtime.Spawn

/-!
# The proxy process

All tasks of the process in one pool: the handlers of any number of streams, any
number of tool calls, and the environment that lets time pass, processes exit and
streams consume their outbound channel. A run of `proxy` from a configuration that
satisfies `Boot` is one schedule of the whole process.
-/

namespace CsmProxy

open Foundations

/-- A task of the process. -/
inductive Task where
  | session (s : Session)
  | send (c : SendCall)
  | observe (c : ObserveCall)
  | view (c : ViewCall)
  | enqueue (c : EnqueueCall)
  | supervisor (c : SupervisorCall)
  | startInstance (c : StartInstanceCall)
  | shutdown (c : ShutdownCall)
  | environment
deriving DecidableEq

/-- What happens outside the process. -/
def environmentStep (h : Host) : Choice → Option Host
  | .tick ns => some { h with now := h.now + ns }
  | .exited child => some (h.modifyProcess child fun p => { p with alive := false })
  | .recv id =>
    let instances := h.instances.modify id fun inst => { inst with outbound := inst.outbound.recv }
    some { h with instances := instances }
  | .drain token => some { h with instances := h.instances.drain token }
  | .hangUp id =>
    let instances := h.instances.modify id fun inst => { inst with outbound := inst.outbound.close }
    some { h with instances := instances }
  | _ => none

namespace Task

/-- One critical section of task `me`. -/
def step (me : Nat) (h : Host) (t : Task) (choice : Choice) : Option (Host × Task) :=
  match t with
  | .session s => (s.step h choice).map fun (h, s) => (h, .session s)
  | .send c => (c.step me h choice).map fun (h, c) => (h, .send c)
  | .observe c => (c.step me h choice).map fun (h, c) => (h, .observe c)
  | .view c => (c.step h choice).map fun (h, c) => (h, .view c)
  | .enqueue c => (c.step h choice).map fun (h, c) => (h, .enqueue c)
  | .supervisor c => (c.step me h choice).map fun (h, c) => (h, .supervisor c)
  | .startInstance c => (c.step me h choice).map fun (h, c) => (h, .startInstance c)
  | .shutdown c => (c.step me h choice).map fun (h, c) => (h, .shutdown c)
  | .environment => (environmentStep h choice).map fun h => (h, .environment)

/-- The task has not taken a step yet. -/
def Fresh : Task → Prop
  | .session s => s = { dialler := s.dialler }
  | .send c => c = { instanceId := c.instanceId, msg := c.msg, timeout := c.timeout, kind := c.kind }
  | .observe c => ∃ id spec, c = .start id spec
  | .view c => ∃ id paths exclude, c = .start id paths exclude
  | .enqueue c => c.result = none ∧ (c.pc = .default ∨ ∃ id, c.pc = .resolve id)
  | .supervisor c =>
    (∃ args connected, c = .start args (.check connected)) ∨ (∃ id, c = .reap id .take) ∨
      c = .reapAll .collect ∨ ∃ id, c = .isAlive id
  | .startInstance c => c = { args := c.args }
  | .shutdown c => ∃ id, c = .start id
  | .environment => True

end Task

/-- The proxy. -/
def proxy : Pool Host Task Choice where
  step := Task.step

theorem fire_task {c c' : Config Host Task} {me : Nat} {i : Choice}
    (hf : proxy.fire c me i = some c') :
    (c.task me).step me c.shared i = some (c'.shared, c'.task me) ∧
      ∀ t, t ≠ me → c'.task t = c.task t :=
  Pool.fire_step hf

/-- The process has just started: no session, no child, and no task has run. -/
structure Boot (c : Config Host Task) : Prop where
  shared : ∃ default config now, c.shared =
    { instances := InstanceMap.new.setDefaultInstance default, config := config, now := now }
  fresh : ∀ t, (c.task t).Fresh

/-- The configuration in which `tasks` are about to run and nothing else. -/
def bootWith (config : SpawnConfig) (tasks : List Task) : Config Host Task :=
  .ofTasks { instances := InstanceMap.new.setDefaultInstance none, config := config } tasks
    .environment

theorem boot_bootWith {config : SpawnConfig} {tasks : List Task} (h : ∀ t ∈ tasks, t.Fresh) :
    Boot (bootWith config tasks) where
  shared := ⟨none, config, 0, rfl⟩
  fresh := Config.forall_ofTasks trivial h

/-- A stream opened by somebody else than the proxy's own children. -/
def externalStream : Task := .session { dialler := .external }

/-- An envelope without a corr. -/
def envelope (payload : SimPayload) : StreamItem := .message { payload := some payload }

/-- The next envelope on a stream. -/
def registerAs (id : String) : Choice := .item (envelope (.register { instanceId := id }))

end CsmProxy
