import CsmProxy.Runtime.Observe

/-!
# Fire-and-forget tools

`McpServer::enqueue` of `mcp.rs`, and `McpServer::set_session_view_json`, which
stores the view on the host after the envelope has been queued.
-/

namespace CsmProxy

/-- Where an `enqueue` call is. -/
inductive EnqueuePc where
  | default
  | resolve (id : String)
  /-- `next_corr`. -/
  | nextCorr (id : String)
  | trySend (id : String) (corr : UInt64)
deriving DecidableEq

/-- `McpServer::enqueue` of a payload. The result is the resolved id and the corr. -/
def EnqueuePc.step (ackRequested : Bool) (payload : ServerPayload) (h : Host) :
    EnqueuePc → Host × (EnqueuePc ⊕ Except String (String × UInt64))
  | .default =>
    match h.instances.defaultInstance with
    | some id => (h, .inl (.resolve id))
    | none => (h, .inr (.error (ObserveCall.resolveError .emptyId)))
  | .resolve id =>
    match h.instances.resolve id with
    | .ok snap => (h, .inl (.nextCorr snap.register.instanceId))
    | .error err => (h, .inr (.error (ObserveCall.resolveError err)))
  | .nextCorr id =>
    let (corr, instances) := h.instances.takeCorr
    ({ h with instances := instances }, .inl (.trySend id corr))
  | .trySend id corr =>
    match h.instances.trySend id { corr, ackRequested, payload := some payload } with
    | .ok instances => ({ h with instances := instances }, .inr (.ok (id, corr)))
    | .error .unknownInstance => (h, .inr (.error "unknown instance"))
    | .error .queueFull => (h, .inr (.error "outbound queue is full"))

/-- Where a `set_session_view_json` call is. -/
inductive ViewPc where
  | default
  | resolve (id : String)
  | enqueue (id : String) (pc : EnqueuePc)
  | setReadMask (id : String) (corr : UInt64)
  | setExclude (id : String) (corr : UInt64)
  | returned (result : Except String (String × UInt64))
deriving DecidableEq

/-- A `set_session_view_json` call. -/
structure ViewCall where
  paths : List String
  excludeLogComponents : List String
  pc : ViewPc
deriving DecidableEq

namespace ViewCall

/-- A call for `id`, or for the default instance. -/
def start (id : Option String) (paths excludeLogComponents : List String) : ViewCall where
  paths := paths
  excludeLogComponents := excludeLogComponents
  pc := id.elim .default .resolve

/-- One critical section of the call. -/
def step (h : Host) (c : ViewCall) (choice : Choice) : Option (Host × ViewCall) :=
  match c.pc, choice with
  | .default, .run =>
    match h.instances.defaultInstance with
    | some id => some (h, { c with pc := .resolve id })
    | none => some (h, { c with pc := .returned (.error (ObserveCall.resolveError .emptyId)) })
  | .resolve id, .run =>
    match h.instances.resolve id with
    | .ok snap =>
      let id := snap.register.instanceId
      some (h, { c with pc := .enqueue id (.resolve id) })
    | .error err => some (h, { c with pc := .returned (.error (ObserveCall.resolveError err)) })
  | .enqueue id pc, .run =>
    let view := .setSessionView (wireSessionViewPaths c.paths) c.excludeLogComponents
    match pc.step false view h with
    | (h, .inl pc) => some (h, { c with pc := .enqueue id pc })
    | (h, .inr (.ok (_, corr))) => some (h, { c with pc := .setReadMask id corr })
    | (h, .inr (.error err)) => some (h, { c with pc := .returned (.error err) })
  | .setReadMask id corr, .run =>
    some ({ h with instances := h.instances.setReadMask id c.paths }, { c with pc := .setExclude id corr })
  | .setExclude id corr, .run =>
    some ({ h with instances := h.instances.setExcludeLogComponents id c.excludeLogComponents },
      { c with pc := .returned (.ok (id, corr)) })
  | _, _ => none

end ViewCall

/-- A tool that enqueues a payload and returns. -/
structure EnqueueCall where
  ackRequested : Bool
  payload : ServerPayload
  pc : EnqueuePc
  result : Option (Except String (String × UInt64)) := none
deriving DecidableEq

namespace EnqueueCall

/-- One critical section of the call. -/
def step (h : Host) (c : EnqueueCall) (choice : Choice) : Option (Host × EnqueueCall) :=
  match c.result, choice with
  | none, .run =>
    match c.pc.step c.ackRequested c.payload h with
    | (h, .inl pc) => some (h, { c with pc := pc })
    | (h, .inr result) => some (h, { c with result := some result })
  | _, _ => none

end EnqueueCall

end CsmProxy
