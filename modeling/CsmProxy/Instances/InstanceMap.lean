import CsmProxy.Foundations.HashMap
import CsmProxy.Instances.InboundQueue

/-!
# The instance map

`InstanceMap` of `instances.rs`: the connected sessions by instance id, the default
instance and the two tables of reply waiters. Each definition is one critical
section of the source, or a method built from several of them; the tasks of the
proxy run the sections one by one.

`AtomicU64::fetch_add` on `next_token` is addition on `Nat`: reaching its wrap would
take `2 ^ 64` sessions, and until then tokens compare as in the source
(`token_eq_iff_u64`). `next_corr` wraps as in the source.
-/

namespace CsmProxy

open Foundations

/-- Maximum length of an instance id (`INSTANCE_ID_MAX_LEN`). -/
def instanceIdMaxLen : Nat := 64

/-- `is_valid_instance_id`; `str::len` counts bytes. -/
def isValidInstanceId (id : String) : Bool :=
  !id.isEmpty && id.utf8ByteSize ≤ instanceIdMaxLen

/-- Which inbound payload completes a waiter. -/
inductive WaitKind where
  | any
  | inputAck
  | uiResult
  | snapshot
deriving DecidableEq, Repr

inductive TrySendError where
  | unknownInstance
  | queueFull
deriving DecidableEq, Repr

inductive WaitError where
  | unknownInstance
  | queueFull
  | timeout
  | disconnected
deriving DecidableEq, Repr

inductive ResolveError where
  | emptyId
  | unknownInstance
deriving DecidableEq, Repr

/-- The bounded outbound channel of a session (`mpsc::Sender<ServerToSim>`). It is
closed once the stream has dropped the receiver. -/
structure Outbound where
  queued : List ServerToSim
  cap : UInt64
  closed : Bool
  bounded : queued.length ≤ cap.toNat

namespace Outbound

/-- `mpsc::channel` -/
def new (cap : UInt64) : Outbound := ⟨[], cap, false, nil_bounded cap⟩

/-- `Sender::try_send`; `none` when the channel is full or closed. -/
def trySend (tx : Outbound) (msg : ServerToSim) : Option Outbound :=
  if h : tx.closed ∨ tx.queued.length = tx.cap.toNat then none
  else some ⟨tx.queued ++ [msg], tx.cap, tx.closed, by
    have := tx.bounded
    have : tx.queued.length ≠ tx.cap.toNat := fun he => h (Or.inr he)
    rw [List.length_append, List.length_singleton]
    omega⟩

/-- `Receiver::recv` on the stream's side. -/
def recv (tx : Outbound) : Outbound :=
  ⟨tx.queued.tail, tx.cap, tx.closed, (List.tail_sublist _).length_le.trans tx.bounded⟩

/-- The stream drops the receiver. -/
def close (tx : Outbound) : Outbound := ⟨tx.queued, tx.cap, true, tx.bounded⟩

end Outbound

/-- `Instance` -/
structure Instance where
  token : Nat
  register : Register
  lastHeartbeat : Option Heartbeat
  inbound : InboundQueue
  outbound : Outbound
  readMask : List String
  excludeLogComponents : List String

/-- Snapshot of a connected instance. -/
structure InstanceSnapshot where
  token : Nat
  register : Register
  lastHeartbeat : Option Heartbeat
deriving DecidableEq

/-- `InstanceMap`. A waiter's `oneshot::Sender` is the number of its channel. `detached` is what
is left, by token, in the channels whose sender the map has dropped; in the source the receivers
in the response streams hold it. -/
structure InstanceMap where
  inner : HashMap String Instance := ∅
  detached : HashMap Nat (List ServerToSim) := ∅
  nextToken : Nat := 1
  nextCorr : UInt64 := 1
  defaultInstance : Option String := none
  waiters : HashMap UInt64 (WaitKind × Nat) := ∅
  waiterInstance : HashMap UInt64 String := ∅

namespace InstanceMap

/-- `InstanceMap::new` -/
def new : InstanceMap := {}

/-- Change the entry of `id` in place (`get_mut`). -/
def modify (m : InstanceMap) (id : String) (f : Instance → Instance) : InstanceMap :=
  { m with inner := m.inner.modify id f }

theorem lookup_modify (m : InstanceMap) (id id' : String) (f : Instance → Instance) :
    (m.modify id f).inner.lookup id' =
      if id' = id then (m.inner.lookup id').map f else m.inner.lookup id' :=
  HashMap.lookup_modify m.inner id id' f

/-! ## Sessions -/

/-- `insert`: the token is allocated outside the map lock. -/
def allocToken (m : InstanceMap) : Nat × InstanceMap :=
  (m.nextToken, { m with nextToken := m.nextToken + 1 })

/-- The entry that `insert` stores. -/
def newInstance (token : Nat) (register : Register) (inboundCap : UInt64) (outbound : Outbound) :
    Instance where
  token := token
  register := register
  lastHeartbeat := none
  inbound := .new inboundCap
  outbound := outbound
  readMask := []
  excludeLogComponents := []

/-- What is left in the detached channels when the sender of the entry of `id` is dropped too. -/
def release (m : InstanceMap) (id : String) : HashMap Nat (List ServerToSim) :=
  match m.inner.lookup id with
  | some inst => m.detached.insert inst.token inst.outbound.queued
  | none => m.detached

/-- `insert`: the section under the map lock. It drops the sender of an entry that it replaces. -/
def insertInstance (m : InstanceMap) (token : Nat) (register : Register) (inboundCap : UInt64)
    (outbound : Outbound) : InstanceMap :=
  let id := register.instanceId
  let inst := newInstance token register inboundCap outbound
  { m with inner := m.inner.insert id inst, detached := m.release id }

/-- `insert` -/
def insert (m : InstanceMap) (register : Register) (inboundCap : UInt64) (outbound : Outbound) :
    Nat × InstanceMap :=
  (m.allocToken.1, m.allocToken.2.insertInstance m.allocToken.1 register inboundCap outbound)

/-- `owns` -/
def owns (m : InstanceMap) (id : String) (token : Nat) : Bool :=
  (m.inner.lookup id).any fun inst => inst.token = token

/-- `set_heartbeat` -/
def setHeartbeat (m : InstanceMap) (id : String) (token : Nat) (heartbeat : Heartbeat) :
    InstanceMap :=
  m.modify id fun inst =>
    if inst.token = token then { inst with lastHeartbeat := some heartbeat } else inst

/-- `remove_if`: the section under the map lock. -/
def removeEntry (m : InstanceMap) (id : String) (token : Nat) : InstanceMap :=
  if m.owns id token then { m with inner := m.inner.erase id, detached := m.release id } else m

/-- `next_corr` -/
def takeCorr (m : InstanceMap) : UInt64 × InstanceMap :=
  (m.nextCorr, { m with nextCorr := m.nextCorr + 1 })

/-- `set_default_instance` -/
def setDefaultInstance (m : InstanceMap) (id : Option String) : InstanceMap :=
  { m with defaultInstance := id.filter isValidInstanceId }

/-- `get` -/
def get (m : InstanceMap) (id : String) : Option InstanceSnapshot :=
  (m.inner.lookup id).map fun inst => ⟨inst.token, inst.register, inst.lastHeartbeat⟩

/-- `resolve` -/
def resolve (m : InstanceMap) (id : String) : Except ResolveError InstanceSnapshot :=
  if !isValidInstanceId id then .error .emptyId
  else match m.get id with
    | some snap => .ok snap
    | none => .error .unknownInstance

/-- `resolve_or_default` -/
def resolveOrDefault (m : InstanceMap) (id : Option String) :
    Except ResolveError InstanceSnapshot :=
  match id with
  | some id => m.resolve id
  | none =>
    match m.defaultInstance with
    | some default => m.resolve default
    | none => .error .emptyId

/-- `try_send` -/
def trySend (m : InstanceMap) (id : String) (msg : ServerToSim) :
    Except TrySendError InstanceMap :=
  match m.inner.lookup id with
  | none => .error .unknownInstance
  | some inst =>
    match inst.outbound.trySend msg with
    | none => .error .queueFull
    | some outbound => .ok { m with inner := m.inner.insert id { inst with outbound := outbound } }

/-- `Receiver::recv` of a stream whose entry is gone. -/
def drain (m : InstanceMap) (token : Nat) : InstanceMap :=
  { m with detached := m.detached.modify token List.tail }

/-! ## The session view -/

/-- `set_read_mask` -/
def setReadMask (m : InstanceMap) (id : String) (paths : List String) : InstanceMap :=
  m.modify id fun inst => { inst with readMask := paths }

/-- `read_mask` -/
def readMask (m : InstanceMap) (id : String) : Option (List String) :=
  (m.inner.lookup id).map Instance.readMask

/-- `set_exclude_log_components` -/
def setExcludeLogComponents (m : InstanceMap) (id : String) (components : List String) :
    InstanceMap :=
  m.modify id fun inst => { inst with excludeLogComponents := components }

/-- `inbound_payload_name` -/
def inboundPayloadName (msg : SimToServer) : Option String :=
  msg.payload.map fun
    | .register _ => "register"
    | .heartbeat _ => "heartbeat"
    | .snapshot _ => "snapshot"
    | .snapshotError _ => "snapshot_error"
    | .log _ => "log"
    | .inputAck _ => "input_ack"
    | .inputObserved _ => "input_observed"
    | .goodbye _ => "goodbye"
    | .uiResult _ => "ui_result"

/-- `inbound_visible` -/
def inboundVisible (mask : List String) (msg : SimToServer) : Bool :=
  mask.isEmpty || (inboundPayloadName msg).any fun name => mask.any fun path => path = name

/-- `try_recv_inbound` -/
def tryRecvInbound (m : InstanceMap) (id : String) : Option SimToServer × InstanceMap :=
  match m.inner.lookup id with
  | none => (none, m)
  | some inst =>
    (inst.inbound.tryRecv.1,
      { m with inner := m.inner.insert id { inst with inbound := inst.inbound.tryRecv.2 } })

/-- True when the message is a log line of an excluded component. -/
def logExcluded (components : List String) (msg : SimToServer) : Bool :=
  match msg.payload with
  | some (.log log) => components.any fun component => component = log.component
  | _ => false

/-- `push_inbound`: the section under the map lock. -/
def enqueueInbound (m : InstanceMap) (id : String) (msg : SimToServer) : InstanceMap :=
  m.modify id fun inst =>
    if !inboundVisible inst.readMask msg then inst
    else if logExcluded inst.excludeLogComponents msg then inst
    else { inst with inbound := inst.inbound.push msg }

/-! ## Waiters -/

/-- `waiter_matches` -/
def waiterMatches (kind : WaitKind) (msg : SimToServer) : Bool :=
  match kind with
  | .any => true
  | .inputAck =>
    match msg.payload with
    | some (.inputAck _) => true
    | _ => false
  | .uiResult =>
    match msg.payload with
    | some (.uiResult _) => true
    | some (.inputAck ack) => !ack.accepted
    | _ => false
  | .snapshot =>
    match msg.payload with
    | some (.snapshot _) | some (.snapshotError _) => true
    | _ => false

/-- `register_waiter`, first table. A sender already stored under `corr` is dropped. -/
def insertWaiter (m : InstanceMap) (corr : UInt64) (kind : WaitKind) (tx : Nat) :
    Option Nat × InstanceMap :=
  ((m.waiters.lookup corr).map Prod.snd,
    { m with waiters := m.waiters.insert corr (kind, tx) })

/-- `register_waiter`, second table. -/
def insertWaiterInstance (m : InstanceMap) (corr : UInt64) (id : String) : InstanceMap :=
  { m with waiterInstance := m.waiterInstance.insert corr id }

/-- `take_waiter` and `complete_waiter`, second table. -/
def removeWaiterInstance (m : InstanceMap) (corr : UInt64) : InstanceMap :=
  { m with waiterInstance := m.waiterInstance.erase corr }

/-- `take_waiter`, first table: the sender that was stored. -/
def removeWaiter (m : InstanceMap) (corr : UInt64) : Option Nat × InstanceMap :=
  ((m.waiters.lookup corr).map Prod.snd, { m with waiters := m.waiters.erase corr })

/-- `complete_waiter`, first table: take the sender when the waiter under the
message's `corr` accepts it. -/
def takeMatching (m : InstanceMap) (msg : SimToServer) : Option Nat × InstanceMap :=
  if msg.corr = 0 then (none, m)
  else match m.waiters.lookup msg.corr with
    | some (kind, tx) =>
      if waiterMatches kind msg then
        (some tx, { m with waiters := m.waiters.erase msg.corr })
      else (none, m)
    | none => (none, m)

/-- `fail_waiters`: the corrs collected under the second table's lock. -/
def waitersOf (m : InstanceMap) (id : String) : Finset UInt64 :=
  m.waiterInstance.keysWhere fun id' => id' = id

/-- Completing a waiter writes to the first table only. -/
theorem takeMatching_frame (m : InstanceMap) (msg : SimToServer) :
    (m.takeMatching msg).2.inner = m.inner ∧ (m.takeMatching msg).2.nextToken = m.nextToken ∧
      (m.takeMatching msg).2.waiterInstance = m.waiterInstance := by
  unfold takeMatching
  split
  · exact ⟨rfl, rfl, rfl⟩
  · split
    · split <;> exact ⟨rfl, rfl, rfl⟩
    · exact ⟨rfl, rfl, rfl⟩

theorem mem_waitersOf {m : InstanceMap} {id : String} {corr : UInt64} :
    corr ∈ m.waitersOf id ↔ m.waiterInstance.lookup corr = some id := by
  simp [waitersOf, HashMap.mem_keysWhere]

end InstanceMap

end CsmProxy
