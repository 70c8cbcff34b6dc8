import CsmProxy.Runtime.Host

/-!
# The waiting call

`InstanceMap::send_and_wait_for` of `instances.rs`, section by section. The call of
task `me` owns the oneshot channel number `me`.
-/

namespace CsmProxy

/-- Where a `send_and_wait_for` call is. -/
inductive SendPc where
  /-- The connected check. -/
  | get
  /-- `register_waiter`, first table. -/
  | insertWaiter
  /-- `register_waiter`, second table. -/
  | insertInstance
  /-- `try_send`. -/
  | trySend
  /-- `take_waiter`, second table, before returning the error. -/
  | forget (err : WaitError)
  /-- `take_waiter`, first table, before returning the error. -/
  | take (err : WaitError)
  /-- Waiting for the reply until the deadline. -/
  | await (deadline : Nat)
  | returned (result : Except WaitError SimToServer)
deriving DecidableEq

/-- A `send_and_wait_for` call. Two fields are histories: `session`, the token of
the session on which the request was enqueued, and `via`, the instance id for which
the reply was pushed. -/
structure SendCall where
  instanceId : String
  msg : ServerToSim
  timeout : Nat
  kind : WaitKind
  pc : SendPc := .get
  session : Option Nat := none
  via : Option String := none
deriving DecidableEq

namespace SendCall

/-- One critical section of the call of task `me`. -/
def step (me : Nat) (h : Host) (c : SendCall) (choice : Choice) : Option (Host × SendCall) :=
  match c.pc, choice with
  | .get, .run =>
    let connected := (h.instances.get c.instanceId).isSome
    some (h, { c with pc := if connected then .insertWaiter else .returned (.error .unknownInstance) })
  | .insertWaiter, .run =>
    let (old, instances) := h.instances.insertWaiter c.msg.corr c.kind me
    some (({ h with instances := instances } : Host).dropSender old, { c with pc := .insertInstance })
  | .insertInstance, .run =>
    some ({ h with instances := h.instances.insertWaiterInstance c.msg.corr c.instanceId },
      { c with pc := .trySend })
  | .trySend, .run =>
    match h.instances.trySend c.instanceId c.msg with
    | .ok instances =>
      let session := (h.instances.inner.lookup c.instanceId).map Instance.token
      some ({ h with instances := instances },
        { c with pc := .await (h.now + c.timeout), session := session })
    | .error .unknownInstance => some (h, { c with pc := .forget .unknownInstance })
    | .error .queueFull => some (h, { c with pc := .forget .queueFull })
  | .forget err, .run =>
    some ({ h with instances := h.instances.removeWaiterInstance c.msg.corr },
      { c with pc := .take err })
  | .take err, .run =>
    let (tx, instances) := h.instances.removeWaiter c.msg.corr
    some (({ h with instances := instances } : Host).dropSender tx,
      { c with pc := .returned (.error err) })
  | .await deadline, .run =>
    match h.oneshot me with
    | .sent via reply => some (h, { c with pc := .returned (.ok reply), via := some via })
    | .dropped => some (h, { c with pc := .returned (.error .disconnected) })
    | .waiting => if deadline ≤ h.now then some (h, { c with pc := .forget .timeout }) else none
  | _, _ => none

end SendCall

end CsmProxy
