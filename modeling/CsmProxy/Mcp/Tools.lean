import CsmProxy.Mcp.ObserveUntil

/-!
# The tools that send

The tools of `mcp.rs` that put an envelope on an outbound queue, as sequential programs
over the instance map. A tool that waits hands the map over while it waits: `Wait` says
what the other tasks made of the map meanwhile and how the wait ended.

An error keeps its cause; `ToolError.text` is the message the tool returns.
-/

namespace CsmProxy

/-- `REPLY_TIMEOUT` -/
def replyTimeout : Nat := 2000000000

/-- Why a tool failed. -/
inductive ToolError where
  | emptyId
  | unknownInstance
  | queueFull
  | unknownWaitMode (mode : String)
  | unknownCoordinateSpace (space : String)
  | timeout
  | disconnected
  /-- The simulator said no, with this message. -/
  | rejected (message : String)
  | unexpectedReply
deriving DecidableEq, Repr

namespace ToolError

/-- The message that the tool returns. -/
def text : ToolError → String
  | .emptyId => "instance_id is required (1-64 bytes) or set --default-instance"
  | .unknownInstance => "unknown instance"
  | .queueFull => "outbound queue is full"
  | .unknownWaitMode mode => "unknown wait_mode: " ++ mode
  | .unknownCoordinateSpace space => "unknown coordinate_space: " ++ space
  | .timeout => "timed out waiting for session reply"
  | .disconnected => "instance disconnected"
  | .rejected message => message
  | .unexpectedReply => "unexpected session reply"

def ofResolve : ResolveError → ToolError
  | .emptyId => .emptyId
  | .unknownInstance => .unknownInstance

def ofTrySend : TrySendError → ToolError
  | .unknownInstance => .unknownInstance
  | .queueFull => .queueFull

def ofWait : WaitError → ToolError
  | .unknownInstance => .unknownInstance
  | .queueFull => .queueFull
  | .timeout => .timeout
  | .disconnected => .disconnected

/-- The tool failed before its request was on an outbound queue. -/
def beforeSending : ToolError → Bool
  | .timeout | .disconnected | .rejected _ | .unexpectedReply => false
  | _ => true

end ToolError

/-- What a tool returns when it succeeds. -/
inductive ToolReply where
  | queued (instanceId : String) (corr : UInt64)
  | painted (result : UiResult) (instanceId : String) (corr : UInt64)
  | accepted (instanceId : String) (corr : UInt64) (generation : Option UInt64) (activity : String)
  | snapshot (frame : SnapshotFrame) (mime : String) (instanceId : String) (corr : UInt64)
deriving DecidableEq, Repr

/-- How the wait for a reply ended. -/
inductive WaitOutcome where
  | reply (msg : SimToServer)
  | senderDropped
  | elapsed
deriving DecidableEq, Repr

/-- The rest of the process while a call waits: given the timeout and the map after the
request was queued, the map when the wait is over and how it ended. -/
abbrev Wait := Nat → InstanceMap → InstanceMap × WaitOutcome

namespace InstanceMap

/-- `register_waiter` -/
def registerWaiter (m : InstanceMap) (id : String) (corr : UInt64) (kind : WaitKind) (tx : Nat) :
    InstanceMap :=
  (m.insertWaiter corr kind tx).2.insertWaiterInstance corr id

/-- `take_waiter` -/
def takeWaiter (m : InstanceMap) (corr : UInt64) : InstanceMap :=
  ((m.removeWaiterInstance corr).removeWaiter corr).2

/-- `send_and_wait_for`, with `tx` for the sender of the new oneshot channel. -/
def sendAndWaitFor (m : InstanceMap) (id : String) (msg : ServerToSim) (timeout : Nat)
    (kind : WaitKind) (tx : Nat) (wait : Wait) : Except WaitError SimToServer × InstanceMap :=
  if (m.get id).isNone then (.error .unknownInstance, m)
  else
    let registered := m.registerWaiter id msg.corr kind tx
    match registered.trySend id msg with
    | .error .unknownInstance => (.error .unknownInstance, registered.takeWaiter msg.corr)
    | .error .queueFull => (.error .queueFull, registered.takeWaiter msg.corr)
    | .ok sent =>
      match wait timeout sent with
      | (after, .reply reply) => (.ok reply, after)
      | (after, .senderDropped) => (.error .disconnected, after)
      | (after, .elapsed) => (.error .timeout, after.takeWaiter msg.corr)

end InstanceMap

/-- `inject_wait_kind` -/
def injectWaitKind (waitMode : Option String) : Except ToolError WaitKind :=
  let mode := waitMode.getD "paint"
  if mode = "paint" then .ok .uiResult
  else if mode = "ack" then .ok .any
  else .error (.unknownWaitMode mode)

/-- `parse_coordinate_space` -/
def parseCoordinateSpace (space : Option String) : Except ToolError CoordinateSpace :=
  let name := space.getD "logical"
  if name = "logical" then .ok .logical
  else if name = "panel" then .ok .panel
  else .error (.unknownCoordinateSpace name)

namespace McpServer

/-- `McpServer::resolve` -/
def resolve (m : InstanceMap) (instanceId : Option String) : Except ToolError InstanceSnapshot :=
  (m.resolveOrDefault instanceId).mapError ToolError.ofResolve

/-- `McpServer::enqueue` -/
def enqueue (m : InstanceMap) (instanceId : Option String) (ackRequested : Bool)
    (payload : ServerPayload) : Except ToolError ToolReply × InstanceMap :=
  match resolve m instanceId with
  | .error err => (.error err, m)
  | .ok snap =>
    let id := snap.register.instanceId
    let (corr, m) := m.takeCorr
    match m.trySend id { corr, ackRequested, payload := some payload } with
    | .error err => (.error (.ofTrySend err), m)
    | .ok m => (.ok (.queued id corr), m)

/-- `McpServer::enqueue_wait` -/
def enqueueWait (m : InstanceMap) (instanceId : Option String) (ackRequested : Bool)
    (payload : ServerPayload) (kind : WaitKind) (timeout : Nat) (tx : Nat) (wait : Wait) :
    Except ToolError (String × UInt64 × SimToServer) × InstanceMap :=
  match resolve m instanceId with
  | .error err => (.error err, m)
  | .ok snap =>
    let id := snap.register.instanceId
    let (corr, m) := m.takeCorr
    match m.sendAndWaitFor id { corr, ackRequested, payload := some payload } timeout kind tx wait with
    | (.error err, m) => (.error (.ofWait err), m)
    | (.ok reply, m) => (.ok (id, corr, reply), m)

/-- What `inject` makes of the reply. -/
def injectReply (m : InstanceMap) (id : String) (corr : UInt64) (reply : SimToServer) :
    Except ToolError ToolReply :=
  match reply.payload with
  | some (.uiResult result) => .ok (.painted result id corr)
  | some (.inputAck ack) =>
    if ack.accepted then
      let heartbeat := (m.get id).bind InstanceSnapshot.lastHeartbeat
      .ok (.accepted id corr (heartbeat.map Heartbeat.framebufferGeneration)
        ((heartbeat.map Heartbeat.activity).getD ""))
    else .error (.rejected (if ack.reason.isEmpty then "inject rejected" else ack.reason))
  | _ => .error .unexpectedReply

/-- `McpServer::inject` -/
def inject (m : InstanceMap) (instanceId : Option String) (wait : Bool) (waitMode : Option String)
    (waitMs : Option UInt32) (payload : ServerPayload) (tx : Nat) (others : Wait) :
    Except ToolError ToolReply × InstanceMap :=
  if !wait then enqueue m instanceId false payload
  else match injectWaitKind waitMode with
    | .error err => (.error err, m)
    | .ok kind =>
      let timeout := (waitMs.map fun ms => ms.toNat * 1000000).getD replyTimeout
      match enqueueWait m instanceId true payload kind timeout tx others with
      | (.error err, m) => (.error err, m)
      | (.ok (id, corr, reply), m) => (injectReply m id corr reply, m)

/-- What `request_snapshot` makes of the reply. -/
def snapshotReply (id : String) (corr : UInt64) (reply : SimToServer) :
    Except ToolError ToolReply :=
  match reply.payload with
  | some (.snapshot frame) =>
    .ok (.snapshot frame (if frame.mimeType.isEmpty then "image/png" else frame.mimeType) id corr)
  | some (.snapshotError err) =>
    .error (.rejected (if err.message.isEmpty then "snapshot failed" else err.message))
  | _ => .error .unexpectedReply

end McpServer

/-- A call of a tool that sends, with its parameters. -/
inductive ToolCall where
  | injectTouch (instanceId : Option String) (kind x y : UInt32) (wait : Bool)
    (waitMode space : Option String) (waitMs : Option UInt32)
  | injectKey (instanceId : Option String) (name : String) (holdMs : UInt32) (wait : Bool)
    (waitMode : Option String) (waitMs : Option UInt32)
  | injectHome (instanceId : Option String) (holdMs : UInt32) (wait : Bool)
    (waitMode : Option String) (waitMs : Option UInt32)
  | injectSwipe (instanceId : Option String) (startX startY endX endY durationMs : UInt32)
    (wait : Bool) (waitMode space : Option String) (waitMs : Option UInt32)
  | setInjectEnabled (instanceId : Option String) (enabled : Bool)
  | requestSnapshot (instanceId : Option String) (region : Bool)
    (x y width height format : UInt32) (wait : Bool)
  | setSessionView (instanceId : Option String) (paths excludeLogComponents : List String)
  | shutdownInstance (instanceId : Option String)
deriving DecidableEq, Repr

namespace McpServer

/-- `inject_touch_json` -/
def injectTouch (m : InstanceMap) (instanceId : Option String) (kind x y : UInt32) (wait : Bool)
    (waitMode space : Option String) (waitMs : Option UInt32) (tx : Nat) (others : Wait) :
    Except ToolError ToolReply × InstanceMap :=
  match parseCoordinateSpace space with
  | .error err => (.error err, m)
  | .ok space =>
    inject m instanceId wait waitMode waitMs (.injectTouch kind x y space) tx others

/-- `inject_key_json` -/
def injectKey (m : InstanceMap) (instanceId : Option String) (name : String) (holdMs : UInt32)
    (wait : Bool) (waitMode : Option String) (waitMs : Option UInt32) (tx : Nat) (others : Wait) :
    Except ToolError ToolReply × InstanceMap :=
  inject m instanceId wait waitMode waitMs (.injectKey name holdMs) tx others

/-- `inject_home_json` -/
def injectHome (m : InstanceMap) (instanceId : Option String) (holdMs : UInt32) (wait : Bool)
    (waitMode : Option String) (waitMs : Option UInt32) (tx : Nat) (others : Wait) :
    Except ToolError ToolReply × InstanceMap :=
  inject m instanceId wait waitMode waitMs (.injectHome holdMs) tx others

/-- `inject_swipe_json` -/
def injectSwipe (m : InstanceMap) (instanceId : Option String)
    (startX startY endX endY durationMs : UInt32) (wait : Bool) (waitMode space : Option String)
    (waitMs : Option UInt32) (tx : Nat) (others : Wait) :
    Except ToolError ToolReply × InstanceMap :=
  match parseCoordinateSpace space with
  | .error err => (.error err, m)
  | .ok space =>
    inject m instanceId wait waitMode waitMs
      (.injectSwipe startX startY endX endY durationMs space) tx others

/-- `set_inject_enabled_json` -/
def setInjectEnabled (m : InstanceMap) (instanceId : Option String) (enabled : Bool) :
    Except ToolError ToolReply × InstanceMap :=
  enqueue m instanceId false (.setInjectEnabled enabled)

/-- `request_snapshot_result` -/
def requestSnapshot (m : InstanceMap) (instanceId : Option String) (region : Bool)
    (x y width height format : UInt32) (wait : Bool) (tx : Nat) (others : Wait) :
    Except ToolError ToolReply × InstanceMap :=
  let payload := .snapshotRequest region x y width height format
  if !wait then enqueue m instanceId false payload
  else match enqueueWait m instanceId false payload .snapshot replyTimeout tx others with
    | (.error err, m) => (.error err, m)
    | (.ok (id, corr, reply), m) => (snapshotReply id corr reply, m)

/-- `set_session_view_json` -/
def setSessionView (m : InstanceMap) (instanceId : Option String)
    (paths excludeLogComponents : List String) : Except ToolError ToolReply × InstanceMap :=
  match resolve m instanceId with
  | .error err => (.error err, m)
  | .ok snap =>
    let id := snap.register.instanceId
    match enqueue m (some id) false
        (.setSessionView (wireSessionViewPaths paths) excludeLogComponents) with
    | (.error err, m) => (.error err, m)
    | (.ok queued, m) =>
      (.ok queued, (m.setReadMask id paths).setExcludeLogComponents id excludeLogComponents)

/-- `shutdown_instance_json` -/
def shutdownInstance (m : InstanceMap) (instanceId : Option String) :
    Except ToolError ToolReply × InstanceMap :=
  enqueue m instanceId false .shutdown

end McpServer

/-- The tool's result and the map it leaves. -/
def ToolCall.run (m : InstanceMap) (tx : Nat) (others : Wait) :
    ToolCall → Except ToolError ToolReply × InstanceMap
  | .injectTouch id kind x y wait mode space ms =>
    McpServer.injectTouch m id kind x y wait mode space ms tx others
  | .injectKey id name holdMs wait mode ms => McpServer.injectKey m id name holdMs wait mode ms tx others
  | .injectHome id holdMs wait mode ms => McpServer.injectHome m id holdMs wait mode ms tx others
  | .injectSwipe id startX startY endX endY durationMs wait mode space ms =>
    McpServer.injectSwipe m id startX startY endX endY durationMs wait mode space ms tx others
  | .setInjectEnabled id enabled => McpServer.setInjectEnabled m id enabled
  | .requestSnapshot id region x y width height format wait =>
    McpServer.requestSnapshot m id region x y width height format wait tx others
  | .setSessionView id paths exclude => McpServer.setSessionView m id paths exclude
  | .shutdownInstance id => McpServer.shutdownInstance m id

end CsmProxy
