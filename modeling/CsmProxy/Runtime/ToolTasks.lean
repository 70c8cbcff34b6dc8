import CsmProxy.Mcp.InjectBatch
import CsmProxy.Runtime.Proxy
import Mathlib.Data.Nat.Pairing

/-!
# Tools as tasks

The tools of `mcp.rs` that put a request on an outbound queue and may wait for its reply,
section by section: `inject` and `request_snapshot_result` over `enqueue` and
`enqueue_wait`, and `inject_batch_json`. A tool checks its arguments before its first
section; what is left then is its `ToolRequest`.

`server` is the process with these tools in it. A task may make several calls, one after
the other, and each `send_and_wait_for` call makes a oneshot channel of its own. So what a
task does goes by numbers that no other task uses: `own` for the task itself, `channel` for
its calls.
-/

namespace CsmProxy

open Foundations

/-- The number by which the task itself goes. -/
def own (task : Nat) : Nat := Nat.pair task 0

/-- The oneshot channel of the request `number` of a task. -/
def channel (task number : Nat) : Nat := Nat.pair task (2 * number + 2)

/-- Which tool reads the reply. -/
inductive ReplyReader where
  | inject
  | snapshot
deriving DecidableEq, Repr

/-- What the tool makes of the reply. -/
def ReplyReader.read (m : InstanceMap) (id : String) (corr : UInt64) (reply : SimToServer) :
    ReplyReader → Except ToolError ToolReply
  | .inject => McpServer.injectReply m id corr reply
  | .snapshot => McpServer.snapshotReply id corr reply

/-- How a tool waits for the reply to its request. -/
structure Waiting where
  kind : WaitKind
  timeout : Nat
  reader : ReplyReader
deriving DecidableEq, Repr

/-- The request of a tool. Without `wait` the tool only enqueues it. -/
structure ToolRequest where
  ackRequested : Bool
  payload : ServerPayload
  wait : Option Waiting := none
deriving DecidableEq, Repr

/-! ## Arguments -/

/-- `inject`, up to its first section. -/
def injectRequest (wait : Bool) (waitMode : Option String) (waitMs : Option UInt32)
    (payload : ServerPayload) : Except ToolError ToolRequest :=
  if !wait then .ok { ackRequested := false, payload }
  else match injectWaitKind waitMode with
    | .error err => .error err
    | .ok kind =>
      let timeout := (waitMs.map fun ms => ms.toNat * 1000000).getD replyTimeout
      .ok { ackRequested := true, payload, wait := some ⟨kind, timeout, .inject⟩ }

/-- `inject_touch_json`, up to its first section. -/
def injectTouchRequest (kind x y : UInt32) (wait : Bool) (waitMode space : Option String)
    (waitMs : Option UInt32) : Except ToolError ToolRequest :=
  match parseCoordinateSpace space with
  | .error err => .error err
  | .ok space => injectRequest wait waitMode waitMs (.injectTouch kind x y space)

/-- `inject_key_json`, up to its first section. -/
def injectKeyRequest (name : String) (holdMs : UInt32) (wait : Bool) (waitMode : Option String)
    (waitMs : Option UInt32) : Except ToolError ToolRequest :=
  injectRequest wait waitMode waitMs (.injectKey name holdMs)

/-- `inject_home_json`, up to its first section. -/
def injectHomeRequest (holdMs : UInt32) (wait : Bool) (waitMode : Option String)
    (waitMs : Option UInt32) : Except ToolError ToolRequest :=
  injectRequest wait waitMode waitMs (.injectHome holdMs)

/-- `inject_swipe_json`, up to its first section. -/
def injectSwipeRequest (startX startY endX endY durationMs : UInt32) (wait : Bool)
    (waitMode space : Option String) (waitMs : Option UInt32) : Except ToolError ToolRequest :=
  match parseCoordinateSpace space with
  | .error err => .error err
  | .ok space =>
    injectRequest wait waitMode waitMs (.injectSwipe startX startY endX endY durationMs space)

/-- `request_snapshot_result`, up to its first section. -/
def snapshotRequest (region : Bool) (x y width height format : UInt32) (wait : Bool) :
    ToolRequest where
  ackRequested := false
  payload := .snapshotRequest region x y width height format
  wait := if wait then some ⟨.snapshot, replyTimeout, .snapshot⟩ else none

/-- The loop body of `inject_batch_json`, up to the first section of the step. -/
def InjectBatchStep.request (shared : SharedParams) (step : InjectBatchStep) :
    Except String ToolRequest :=
  let p := step.effective shared
  let tool (r : Except ToolError ToolRequest) := r.mapError ToolError.text
  if step.kind = "touch" then
    tool (injectTouchRequest (step.touchKind.getD 3) step.x step.y p.wait p.waitMode p.space
      p.waitMs)
  else if step.kind = "key" then
    tool (injectKeyRequest (step.name.getD "") step.holdMs p.wait p.waitMode p.waitMs)
  else if step.kind = "home" then
    tool (injectHomeRequest step.holdMs p.wait p.waitMode p.waitMs)
  else if step.kind = "swipe" then
    tool (injectSwipeRequest step.startX step.startY step.endX step.endY step.durationMs p.wait
      p.waitMode p.space p.waitMs)
  else .error ("unknown inject_batch step kind: " ++ step.kind)

/-! ## One request -/

/-- Where a request that is waited for is. -/
inductive WaitPc where
  /-- `enqueue_wait`: the default instance. -/
  | default
  /-- `enqueue_wait`: `resolve`. -/
  | resolve (id : String)
  /-- `enqueue_wait`: `next_corr`. -/
  | nextCorr (id : String)
  /-- Inside `send_and_wait_for`. -/
  | send (call : SendCall)
  /-- What the tool makes of the reply; `inject` looks at the last heartbeat. -/
  | read (id : String) (corr : UInt64) (reply : SimToServer)
deriving DecidableEq

namespace WaitPc

/-- After a section of `send_and_wait_for`. -/
def afterSend (call : SendCall) : WaitPc ⊕ Except ToolError ToolReply :=
  match call.pc with
  | .returned (.ok reply) => .inl (.read call.instanceId call.msg.corr reply)
  | .returned (.error err) => .inr (.error (.ofWait err))
  | _ => .inl (.send call)

/-- The call that `enqueue_wait` makes. -/
def callFor (ackRequested : Bool) (payload : ServerPayload) (w : Waiting) (id : String)
    (corr : UInt64) : SendCall where
  instanceId := id
  msg := { corr, ackRequested, payload := some payload }
  timeout := w.timeout
  kind := w.kind

/-- One section: the next one, or the result. -/
def step (tx : Nat) (ackRequested : Bool) (payload : ServerPayload) (w : Waiting) (h : Host) :
    WaitPc → Choice → Option (Host × (WaitPc ⊕ Except ToolError ToolReply))
  | .default, .run =>
    match h.instances.defaultInstance with
    | some id => some (h, .inl (.resolve id))
    | none => some (h, .inr (.error .emptyId))
  | .resolve id, .run =>
    match h.instances.resolve id with
    | .ok snap => some (h, .inl (.nextCorr snap.register.instanceId))
    | .error err => some (h, .inr (.error (.ofResolve err)))
  | .nextCorr id, .run =>
    let (corr, instances) := h.instances.takeCorr
    some ({ h with instances := instances }, .inl (.send (callFor ackRequested payload w id corr)))
  | .send call, choice => (call.step tx h choice).map fun (h, call) => (h, afterSend call)
  | .read id corr reply, .run => some (h, .inr (w.reader.read h.instances id corr reply))
  | _, _ => none

end WaitPc

/-- Where a request is. -/
inductive RequestPc where
  | enqueue (pc : EnqueuePc)
  | wait (w : Waiting) (pc : WaitPc)
deriving DecidableEq

/-- A request to `instanceId`, or to the default instance, before its first section. -/
def ToolRequest.start (r : ToolRequest) (instanceId : Option String) : RequestPc :=
  match r.wait with
  | none => .enqueue (instanceId.elim .default .resolve)
  | some w => .wait w (instanceId.elim .default .resolve)

/-- One section of the request `r` with the oneshot channel `tx`. -/
def RequestPc.step (tx : Nat) (r : ToolRequest) (h : Host) :
    RequestPc → Choice → Option (Host × (RequestPc ⊕ Except String ToolReply))
  | .enqueue pc, .run =>
    let (h, out) := pc.step r.ackRequested r.payload h
    some (h, out.map .enqueue fun result => result.map fun (id, corr) => .queued id corr)
  | .wait w pc, choice =>
    (pc.step tx r.ackRequested r.payload w h choice).map fun (h, out) =>
      (h, out.map (.wait w) (Except.mapError ToolError.text))
  | _, _ => none

/-! ## The tools -/

/-- A tool that makes one request. -/
structure ToolTask where
  request : ToolRequest
  state : RequestPc ⊕ Except String ToolReply
deriving DecidableEq

/-- One section of the tool. -/
def ToolTask.step (me : Nat) (h : Host) (c : ToolTask) (choice : Choice) : Option (Host × ToolTask) :=
  match c.state with
  | .inl pc => (pc.step (channel me 0) c.request h choice).map fun (h, out) => (h, { c with state := out })
  | .inr _ => none

/-- Where an `inject_batch_json` call is. -/
inductive BatchPc where
  | default
  | resolve (id : String)
  /-- In step `index`, with the results so far and the steps to come. -/
  | step (id : String) (index : Nat) (results : List BatchEntry) (request : ToolRequest)
    (pc : RequestPc) (rest : List InjectBatchStep)
  | returned (result : Except String BatchReply)
deriving DecidableEq

/-- The response after step `index` has failed. -/
def BatchReply.stoppedAt (id : String) (index : Nat) (results : List BatchEntry) (error : String) :
    BatchReply where
  instanceId := id
  stopped := true
  failedIndex := some index
  error := some error
  results := results ++ [⟨index, .error error⟩]

/-- The loop of `inject_batch_json` from step `index` on, up to its next section. -/
def BatchPc.enter (shared : SharedParams) (id : String) (index : Nat) (results : List BatchEntry) :
    List InjectBatchStep → BatchPc
  | [] => .returned (.ok { instanceId := id, stopped := false, results })
  | first :: rest =>
    match first.request shared with
    | .ok request => .step id index results request (request.start (some id)) rest
    | .error error => .returned (.ok (.stoppedAt id index results error))

/-- An `inject_batch_json` call. -/
structure BatchCall where
  shared : SharedParams
  steps : List InjectBatchStep
  pc : BatchPc
deriving DecidableEq

namespace BatchCall

/-- A call for `id`, or for the default instance. -/
def start (id : Option String) (shared : SharedParams) (steps : List InjectBatchStep) :
    BatchCall where
  shared := shared
  steps := steps
  pc := id.elim .default .resolve

/-- One section of the call of task `me`. -/
def step (me : Nat) (h : Host) (c : BatchCall) (choice : Choice) : Option (Host × BatchCall) :=
  match c.pc, choice with
  | .default, .run =>
    match h.instances.defaultInstance with
    | some id => some (h, { c with pc := .resolve id })
    | none => some (h, { c with pc := .returned (.error ToolError.emptyId.text) })
  | .resolve id, .run =>
    match h.instances.resolve id with
    | .ok snap => some (h, { c with pc := .enter c.shared snap.register.instanceId 0 [] c.steps })
    | .error err => some (h, { c with pc := .returned (.error (ToolError.ofResolve err).text) })
  | .step id index results request pc rest, choice =>
    (pc.step (channel me index) request h choice).map fun (h, out) =>
      (h, { c with pc := match out with
        | .inl pc => .step id index results request pc rest
        | .inr (.ok value) =>
          .enter c.shared id (index + 1) (results ++ [⟨index, .ok value⟩]) rest
        | .inr (.error error) => .returned (.ok (.stoppedAt id index results error)) })
  | _, _ => none

end BatchCall

/-! ## The process with its tools -/

/-- A task of the process. -/
inductive ServerTask where
  | task (t : Task)
  | tool (c : ToolTask)
  | batch (c : BatchCall)
deriving DecidableEq

namespace ServerTask

/-- A tool that makes the request, or has refused its arguments. -/
def ofRequest (instanceId : Option String) : Except ToolError ToolRequest → ServerTask
  | .ok request => .tool ⟨request, .inl (request.start instanceId)⟩
  | .error err => .tool ⟨{ ackRequested := false, payload := .shutdown }, .inr (.error err.text)⟩

/-- One critical section of task `me`. Only `enqueue_wait` calls `send_and_wait_for`. -/
def step (me : Nat) (h : Host) : ServerTask → Choice → Option (Host × ServerTask)
  | .task (.send _), _ => none
  | .task t, choice => (t.step (own me) h choice).map fun (h, t) => (h, .task t)
  | .tool c, choice => (c.step me h choice).map fun (h, c) => (h, .tool c)
  | .batch c, choice => (c.step me h choice).map fun (h, c) => (h, .batch c)

/-- The task has not taken a step yet. -/
def Fresh : ServerTask → Prop
  | .task t => t.Fresh
  | .tool c => (∃ id, c.state = .inl (c.request.start id)) ∨ ∃ err, c.state = .inr (.error err)
  | .batch c => ∃ id, c = .start id c.shared c.steps

end ServerTask

/-- The call of a tool as a task. -/
def ToolCall.task : ToolCall → ServerTask
  | .injectTouch id kind x y wait mode space ms =>
    .ofRequest id (injectTouchRequest kind x y wait mode space ms)
  | .injectKey id name holdMs wait mode ms => .ofRequest id (injectKeyRequest name holdMs wait mode ms)
  | .injectHome id holdMs wait mode ms => .ofRequest id (injectHomeRequest holdMs wait mode ms)
  | .injectSwipe id startX startY endX endY durationMs wait mode space ms =>
    .ofRequest id (injectSwipeRequest startX startY endX endY durationMs wait mode space ms)
  | .setInjectEnabled id enabled =>
    .ofRequest id (.ok { ackRequested := false, payload := .setInjectEnabled enabled })
  | .requestSnapshot id region x y width height format wait =>
    .ofRequest id (.ok (snapshotRequest region x y width height format wait))
  | .setSessionView id paths exclude => .task (.view (.start id paths exclude))
  | .shutdownInstance id => .task (.shutdown (.start id))

theorem ServerTask.fresh_ofRequest (id : Option String) (r : Except ToolError ToolRequest) :
    (ServerTask.ofRequest id r).Fresh := by
  cases r with
  | ok request => exact .inl ⟨id, rfl⟩
  | error err => exact .inr ⟨err.text, rfl⟩

theorem ToolCall.task_fresh (call : ToolCall) : call.task.Fresh := by
  cases call with
  | setSessionView id paths exclude => exact ⟨id, paths, exclude, rfl⟩
  | shutdownInstance id => exact ⟨id, rfl⟩
  | setInjectEnabled id enabled | requestSnapshot id => exact .inl ⟨id, rfl⟩
  | _ => exact ServerTask.fresh_ofRequest ..

/-- The process. -/
def server : Pool Host ServerTask Choice where
  step := ServerTask.step

theorem fire_serverTask {c c' : Config Host ServerTask} {me : Nat} {i : Choice}
    (hf : server.fire c me i = some c') :
    (c.task me).step me c.shared i = some (c'.shared, c'.task me) ∧
      ∀ t, t ≠ me → c'.task t = c.task t :=
  Pool.fire_step hf

/-- The process has just started: no session, no child, and no task has run. -/
structure ServerBoot (c : Config Host ServerTask) : Prop where
  shared : ∃ default config now, c.shared =
    { instances := InstanceMap.new.setDefaultInstance default, config := config, now := now }
  fresh : ∀ t, (c.task t).Fresh

/-- The configuration in which `tasks` are about to run and nothing else. -/
def serveWith (tasks : List ServerTask) : Config Host ServerTask :=
  .ofTasks { instances := InstanceMap.new.setDefaultInstance none } tasks (.task .environment)

theorem serverBoot_serveWith {tasks : List ServerTask} (h : ∀ t ∈ tasks, t.Fresh) :
    ServerBoot (serveWith tasks) where
  shared := ⟨none, {}, 0, rfl⟩
  fresh := Config.forall_ofTasks (p := ServerTask.Fresh) trivial h

end CsmProxy
