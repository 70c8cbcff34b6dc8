import CsmProxy.Runtime.View

/-!
# Spawning tasks

The methods of `SpawnSupervisor` (`start`, `reap`, `reap_all`, `is_alive`) section by
section, and the tools that call them: `start_instance` and `shutdown_instance` of
`mcp.rs`. The file operations of `start` only succeed or fail here, and the new
process is a number that is not in use; a child whose handle is dropped is killed by
`kill_on_drop`, which needs no step because a process may exit at any time.
-/

namespace CsmProxy

/-- What `start` is asked for. -/
structure StartArgs where
  instanceId : String
  sampleBook : Bool := true
  autoSleep : Bool := false
deriving DecidableEq, Repr

/-- The sections of `start`. -/
inductive StartPc where
  /-- The checks before the reservation. -/
  | check (alreadyConnected : Bool)
  | reserve
  | createDir
  | seedBook
  | seedSettings
  /-- `cmd.spawn()`. -/
  | exec
  /-- `clear_starting`, before returning `SpawnFailed`. -/
  | clear (err : String)
  /-- From `starting` to `children`. -/
  | store (child : Nat) (pid : UInt32)
deriving DecidableEq

namespace StartPc

/-- One section of a `start` call of task `me`: the next one, or the result. -/
def step (args : StartArgs) (me : Nat) (h : Host) :
    StartPc → Choice → Option (Host × (StartPc ⊕ Except SpawnError UInt32))
  | .check alreadyConnected, .run =>
    some (h,
      if !isValidInstanceId args.instanceId then .inr (.error .invalidId)
      else if h.config.binary.isNone then .inr (.error .notConfigured)
      else if alreadyConnected then .inr (.error .alreadyConnected)
      else .inl .reserve)
  | .reserve, .run =>
    let (free, supervisor) := h.supervisor.reserve h.alive args.instanceId
    some ({ h with supervisor := supervisor },
      if free then .inl .createDir else .inr (.error .alreadySpawned))
  | .createDir, .run => some (h, .inl .seedBook)
  | .createDir, .fails err => some (h, .inl (.clear err))
  | .seedBook, .run => some (h, .inl .seedSettings)
  | .seedBook, .fails err => if args.sampleBook then some (h, .inl (.clear err)) else none
  | .seedSettings, .run => some (h, .inl .exec)
  | .seedSettings, .fails err => if !args.autoSleep then some (h, .inl (.clear err)) else none
  | .exec, .spawned child pid =>
    if (h.process.lookup child).isNone then
      let process : Process := { owner := me, instanceId := args.instanceId, pid := pid }
      some ({ h with process := h.process.insert child process }, .inl (.store child pid))
    else none
  | .exec, .fails err => some (h, .inl (.clear err))
  | .clear err, .run =>
    some ({ h with supervisor := h.supervisor.clearStarting args.instanceId },
      .inr (.error (.spawnFailed err)))
  | .store child pid, .run =>
    some ({ h with supervisor := h.supervisor.storeChild args.instanceId child }, .inr (.ok pid))
  | _, _ => none

end StartPc

/-- The sections of `reap`. -/
inductive ReapPc where
  | take
  /-- `start_kill`. -/
  | kill (child : Nat)
  /-- Waiting for the exit, two seconds at most. -/
  | wait (child deadline : Nat)
deriving DecidableEq

namespace ReapPc

/-- One section of a `reap(id)` call of task `me`; `none` when the call has returned. -/
def step (id : String) (me : Nat) (h : Host) : ReapPc → Choice → Option (Host × Option ReapPc)
  | .take, .run =>
    let (child, supervisor) := h.supervisor.takeChild id
    some ({ h with supervisor := supervisor }, child.map .kill)
  | .kill child, .run =>
    some (h.modifyProcess child fun p => { p with signalled := p.signalled ++ [me] },
      some (.wait child (h.now + millis 2000)))
  | .wait child deadline, .run =>
    if !h.alive child || deadline ≤ h.now then some (h, none) else none
  | _, _ => none

/-- The child the call has taken from the table. -/
def holds : ReapPc → Option Nat
  | .take => none
  | .kill child => some child
  | .wait child _ => some child

end ReapPc

/-! ## The methods of the supervisor -/

/-- The sections of `reap_all`. -/
inductive ReapAllPc where
  /-- The ids of the stored children. -/
  | collect
  /-- The ids still to reap. -/
  | next (rest : Finset String)
  | reap (id : String) (pc : ReapPc) (rest : Finset String)
  | returned
deriving DecidableEq

/-- A call of a method of the supervisor. -/
inductive SupervisorCall where
  | start (args : StartArgs) (pc : StartPc)
  | started (args : StartArgs) (result : Except SpawnError UInt32)
  | reap (id : String) (pc : ReapPc)
  | reaped (id : String)
  | reapAll (pc : ReapAllPc)
  | isAlive (id : String)
  | answered (id : String) (alive : Bool)
deriving DecidableEq

namespace SupervisorCall

/-- One section of a `reap_all` call of task `me`. -/
def reapAllStep (me : Nat) (h : Host) : ReapAllPc → Choice → Option (Host × ReapAllPc)
  | .collect, .run => some (h, .next h.supervisor.children.keys)
  | .next rest, .run => if rest = ∅ then some (h, .returned) else none
  | .next rest, .pickId id => if id ∈ rest then some (h, .reap id .take (rest.erase id)) else none
  | .reap id pc rest, choice =>
    (pc.step id me h choice).map fun (h, pc) => (h, pc.elim (.next rest) (.reap id · rest))
  | _, _ => none

/-- One section of the call of task `me`. -/
def step (me : Nat) (h : Host) : SupervisorCall → Choice → Option (Host × SupervisorCall)
  | .start args pc, choice =>
    (pc.step args me h choice).map fun (h, out) => (h, out.elim (.start args) (.started args))
  | .reap id pc, choice =>
    (pc.step id me h choice).map fun (h, pc) => (h, pc.elim (.reaped id) (.reap id))
  | .reapAll pc, choice => (reapAllStep me h pc choice).map fun (h, pc) => (h, .reapAll pc)
  | .isAlive id, .run =>
    let (alive, supervisor) := h.supervisor.childAlive h.alive id
    some ({ h with supervisor := supervisor }, .answered id alive)
  | _, _ => none

end SupervisorCall

/-! ## `start_instance` -/

/-- What `start_instance` answers. -/
structure StartReply where
  instanceId : String
  pid : UInt32
  register : Register
  lastHeartbeat : Option Heartbeat
  sampleBook : Bool
  autoSleep : Bool
deriving DecidableEq

/-- Where a `start_instance_json` call is. -/
inductive StartInstancePc where
  | validate
  /-- The already-connected check. -/
  | connected
  | start (pc : StartPc)
  /-- The loop: the instance map. -/
  | poll (pid : UInt32) (deadline : Nat)
  /-- The loop: `is_alive`. -/
  | alive (pid : UInt32) (deadline : Nat)
  /-- The loop: the clock. -/
  | clock (pid : UInt32) (deadline : Nat)
  /-- The loop: sleeping until `wake`. -/
  | sleep (pid : UInt32) (deadline wake : Nat)
  /-- Giving up. -/
  | reap (err : SpawnError) (pc : ReapPc)
  | returned (result : Except String StartReply)
deriving DecidableEq

/-- A `start_instance_json` call. Two fields are histories: `connectedAtSpawn`, was
a session of the id connected when the child was spawned, and `session`, the token
of the session whose registration the call returned. -/
structure StartInstanceCall where
  args : StartArgs
  pc : StartInstancePc := .validate
  connectedAtSpawn : Bool := false
  session : Option Nat := none
deriving DecidableEq

namespace StartInstanceCall

/-- Is a session of `id` connected? -/
def connected (h : Host) (id : String) : Bool := (h.instances.get id).isSome

/-- The answer for the session `snap`. -/
def answer (args : StartArgs) (pid : UInt32) (snap : InstanceSnapshot) : StartReply where
  instanceId := snap.register.instanceId
  pid := pid
  register := snap.register
  lastHeartbeat := snap.lastHeartbeat
  sampleBook := args.sampleBook
  autoSleep := args.autoSleep

/-- One critical section of the call of task `me`. -/
def step (me : Nat) (h : Host) (c : StartInstanceCall) (choice : Choice) :
    Option (Host × StartInstanceCall) :=
  match c.pc, choice with
  | .validate, .run =>
    let valid := isValidInstanceId c.args.instanceId
    some (h, { c with pc := if valid then .connected else .returned (.error SpawnError.invalidId.asStr) })
  | .connected, .run => some (h, { c with pc := .start (.check (connected h c.args.instanceId)) })
  | .start pc, choice =>
    (pc.step c.args me h choice).map fun (h', out) =>
      (h', { c with
        pc := match out with
          | .inl pc => .start pc
          | .inr (.ok pid) => .poll pid (h.now + h.config.wait)
          | .inr (.error err) => .returned (.error err.asStr)
        connectedAtSpawn := if pc = .exec then connected h c.args.instanceId else c.connectedAtSpawn })
  | .poll pid deadline, .run =>
    match h.instances.get c.args.instanceId with
    | some snap =>
      some (h, { c with pc := .returned (.ok (answer c.args pid snap)), session := some snap.token })
    | none => some (h, { c with pc := .alive pid deadline })
  | .alive pid deadline, .run =>
    let (alive, supervisor) := h.supervisor.childAlive h.alive c.args.instanceId
    let pc := if alive then .clock pid deadline else .reap .exitedBeforeRegister .take
    some ({ h with supervisor := supervisor }, { c with pc := pc })
  | .clock pid deadline, .run =>
    let late := decide (deadline ≤ h.now)
    let pc := if late then .reap .registerTimeout .take else .sleep pid deadline (h.now + millis 100)
    some (h, { c with pc := pc })
  | .sleep pid deadline wake, .run =>
    if wake ≤ h.now then some (h, { c with pc := .poll pid deadline }) else none
  | .reap err pc, choice =>
    (pc.step c.args.instanceId me h choice).map fun (h, pc) =>
      (h, { c with pc := pc.elim (.returned (.error err.asStr)) (.reap err) })
  | _, _ => none

end StartInstanceCall

/-! ## `shutdown_instance` -/

/-- Where a `shutdown_instance` call is. -/
inductive ShutdownPc where
  /-- `shutdown_instance_json`. -/
  | enqueue (pc : EnqueuePc)
  /-- `reap_if_spawned`: which id? -/
  | choose (queued : Except String (String × UInt64))
  | reap (queued : Except String (String × UInt64)) (id : String) (pc : ReapPc)
  | returned (queued : Except String (String × UInt64))
deriving DecidableEq

/-- A `shutdown_instance` call. -/
structure ShutdownCall where
  instanceId : Option String
  pc : ShutdownPc
deriving DecidableEq

namespace ShutdownCall

/-- A call for `id`, or for the default instance. -/
def start (id : Option String) : ShutdownCall := ⟨id, .enqueue (id.elim .default .resolve)⟩

/-- The id that `reap_if_spawned` reaps. -/
def target (m : InstanceMap) (id : Option String) : Option String :=
  match id with
  | some id => if isValidInstanceId id then some id else none
  | none => m.defaultInstance

/-- One critical section of the call of task `me`. -/
def step (me : Nat) (h : Host) (c : ShutdownCall) (choice : Choice) : Option (Host × ShutdownCall) :=
  match c.pc, choice with
  | .enqueue pc, .run =>
    match pc.step false .shutdown h with
    | (h, .inl pc) => some (h, { c with pc := .enqueue pc })
    | (h, .inr queued) => some (h, { c with pc := .choose queued })
  | .choose queued, .run =>
    match target h.instances c.instanceId with
    | some id => some (h, { c with pc := .reap queued id .take })
    | none => some (h, { c with pc := .returned queued })
  | .reap queued id pc, choice =>
    (pc.step id me h choice).map fun (h, pc) =>
      (h, { c with pc := pc.elim (.returned queued) (.reap queued id) })
  | _, _ => none

end ShutdownCall

end CsmProxy
