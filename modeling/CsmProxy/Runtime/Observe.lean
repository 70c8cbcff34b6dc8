import CsmProxy.Runtime.Host

/-!
# The observe task

`McpServer::observe_json` and `McpServer::observe_wait_json` of `mcp.rs`. Every pop
of the inbound queue is a section of its own, so several calls can share one queue.
Each pop is also entered in the history `Host.pops` under the number of the task.

`drain_observe` collects its events in a local list and cannot fail once it has
popped something; the model appends them to the call's events directly.
-/

namespace CsmProxy

/-- The body of an `observe` response. `matched` and `timed_out` are present only
for a call with an until-condition. -/
structure ObserveReply where
  instanceId : String
  events : List SimToServer
  ui : HeartbeatUi
  matched : Option Bool
  timedOut : Option Bool
deriving DecidableEq, Repr

/-- Where an observe call is. -/
inductive ObservePc where
  /-- `resolve_or_default` without an id: the default instance. -/
  | default
  /-- `resolve`. -/
  | resolve (id : String)
  /-- `read_mask`. -/
  | readMask
  /-- `try_recv_inbound`, in a drain under `mask`. -/
  | drain (mask : List String)
  /-- The generation floor and the deadline. -/
  | floor
  /-- `heartbeat_ui` and the until-conditions. -/
  | check
  /-- The clock. -/
  | clock (matched : Bool)
  /-- `observe_result`. -/
  | reply (waiting matched : Bool)
  /-- Sleeping until `wake`. -/
  | sleep (wake : Nat)
  | returned (result : Except String ObserveReply)
deriving DecidableEq

/-- An observe call. Without a spec it is `observe_json`. `polling` is false until
the first drain is over. -/
structure ObserveCall where
  spec : Option ObserveSpec
  pc : ObservePc
  id : String := ""
  polling : Bool := false
  events : List SimToServer := []
  floor : Option UInt64 := none
  deadline : Nat := 0
deriving DecidableEq

namespace ObserveCall

/-- A call for `id`, or for the default instance. -/
def start (id : Option String) (spec : Option ObserveSpec) : ObserveCall where
  spec := spec
  pc := id.elim .default .resolve

/-- The error text of `McpServer::resolve`. -/
def resolveError : ResolveError → String
  | .emptyId => "instance_id is required (1-64 bytes) or set --default-instance"
  | .unknownInstance => "unknown instance"

/-- What follows a drain. -/
def afterDrain (c : ObserveCall) : ObservePc :=
  if c.polling then .check else if c.spec.isSome then .floor else .reply false false

/-- `until_generation_gt`, with `0` standing for the current generation. -/
def generationFloor (m : InstanceMap) (id : String) (spec : ObserveSpec) : Option UInt64 :=
  match spec.untilGenerationGt with
  | some 0 => some ((heartbeatUi m id).generation.getD 0)
  | other => other

/-- The until-conditions of the call over its events and the heartbeat `ui`. -/
def untilMatched (c : ObserveCall) (spec : ObserveSpec) (ui : HeartbeatUi) : Bool :=
  observeUntilMatched spec.effectiveLog c.floor spec.effectiveActivity spec.untilProgressPage
    c.events ui.generation ui.activity ui.readerPage

/-- One critical section of the call of task `me`. -/
def step (me : Nat) (h : Host) (c : ObserveCall) (choice : Choice) : Option (Host × ObserveCall) :=
  match c.pc, choice with
  | .default, .run =>
    match h.instances.defaultInstance with
    | some id => some (h, { c with pc := .resolve id })
    | none => some (h, { c with pc := .returned (.error (resolveError .emptyId)) })
  | .resolve id, .run =>
    match h.instances.resolve id with
    | .ok snap => some (h, { c with id := snap.register.instanceId, pc := .readMask })
    | .error err => some (h, { c with pc := .returned (.error (resolveError err)) })
  | .readMask, .run =>
    some (h, { c with pc := .drain ((h.instances.readMask c.id).getD []) })
  | .drain mask, .run =>
    match h.instances.tryRecvInbound c.id with
    | (some msg, instances) =>
      let events := if InstanceMap.inboundVisible mask msg then c.events ++ [msg] else c.events
      some ({ h with instances := instances, pops := h.pops ++ [(me, c.id, msg)] },
        { c with events := events })
    | (none, instances) => some ({ h with instances := instances }, { c with pc := c.afterDrain })
  | .floor, .run =>
    match c.spec with
    | none => none
    | some spec =>
      let wait := spec.timeoutMs h.config.observeWaitMs
      some (h, { c with
        polling := true
        floor := generationFloor h.instances c.id spec
        deadline := h.now + millis wait.toNat
        pc := .check })
  | .check, .run =>
    c.spec.map fun spec => (h, { c with pc := .clock (c.untilMatched spec (heartbeatUi h.instances c.id)) })
  | .clock matched, .run =>
    c.spec.map fun spec =>
      let timedOut := decide (c.deadline ≤ h.now)
      if (spec.waiting && (matched || timedOut)) || (!spec.waiting && timedOut) then
        (h, { c with pc := .reply spec.waiting matched })
      else (h, { c with pc := .sleep (h.now + millis 25) })
  | .reply waiting matched, .run =>
    some (h, { c with pc := .returned (.ok {
      instanceId := c.id
      events := c.events
      ui := heartbeatUi h.instances c.id
      matched := if waiting then some matched else none
      timedOut := if waiting then some (!matched) else none }) })
  | .sleep wake, .run => if wake ≤ h.now then some (h, { c with pc := .resolve c.id }) else none
  | _, _ => none

end ObserveCall

end CsmProxy
