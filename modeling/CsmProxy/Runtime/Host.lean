import CsmProxy.Mcp.ObserveUntil
import CsmProxy.Spawn.Supervisor

/-!
# What the tasks of the proxy share

`Host` is the shared state of the process: the instance map, the oneshot channels
of the reply waiters, the spawn supervisor, the operating system's processes and
the clock. Two fields are histories that the code does not store: the instance id a
reply was pushed for (`Oneshot.sent`), and the log of the envelopes taken by
`observe` (`pops`).

The second half defines the two operations that several tasks run section by
section: `push_inbound` and `remove_if`.
-/

namespace CsmProxy

open Foundations

/-- A `oneshot` channel as its receiver sees it. `via` is the instance id given to
the `push_inbound` call that sent the reply. -/
inductive Oneshot where
  | waiting
  | sent (via : String) (reply : SimToServer)
  | dropped
deriving DecidableEq, Repr

/-- A simulator process started by `start`. `owner` is the task whose call spawned
it, `signalled` are the tasks that called `start_kill` on it. -/
structure Process where
  owner : Nat
  instanceId : String
  pid : UInt32
  alive : Bool := true
  signalled : List Nat := []
deriving DecidableEq, Repr

/-- The state shared by all tasks. -/
structure Host where
  instances : InstanceMap := .new
  oneshot : Nat → Oneshot := fun _ => .waiting
  supervisor : Supervisor := {}
  process : HashMap Nat Process := ∅
  config : SpawnConfig := {}
  now : Nat := 0
  pops : List (Nat × String × SimToServer) := []

/-- What a stream yields. -/
inductive StreamItem where
  | message (msg : SimToServer)
  | error (text : String)
  | closed
deriving DecidableEq, Repr

/-- What the environment decides at a step. -/
inductive Choice where
  /-- Nothing: the section is deterministic. -/
  | run
  /-- The next item of the stream. -/
  | item (item : StreamItem)
  /-- The next corr in the iteration order of a hash map. -/
  | pick (corr : UInt64)
  /-- The next id in the iteration order of a hash map. -/
  | pickId (id : String)
  /-- A file or process operation fails. -/
  | fails (err : String)
  /-- The process that `spawn` created. -/
  | spawned (child : Nat) (pid : UInt32)
  /-- Time passes. -/
  | tick (ns : Nat)
  /-- A process exits. -/
  | exited (child : Nat)
  /-- A stream takes a message from its outbound channel. -/
  | recv (id : String)
  /-- A stream whose entry is gone takes a message that is left in its outbound channel. -/
  | drain (token : Nat)
  /-- A stream drops its outbound receiver. -/
  | hangUp (id : String)
deriving DecidableEq, Repr

/-- `Duration::from_millis` -/
def millis (ms : Nat) : Nat := ms * 1000000

namespace Host

/-- Is this process still running? -/
def alive (h : Host) (child : Nat) : Bool := (h.process.lookup child).any Process.alive

/-- The sender of a waiter is dropped: its receiver fails. -/
def dropSender (h : Host) (tx : Option Nat) : Host :=
  match tx with
  | none => h
  | some tx => { h with oneshot := Function.update h.oneshot tx .dropped }

/-- `tx.send(msg.clone())` inside `push_inbound(via, msg)`. -/
def sendReply (h : Host) (tx : Nat) (via : String) (msg : SimToServer) : Host :=
  { h with oneshot := Function.update h.oneshot tx (.sent via msg) }

/-- Change a process, if there is one of that number. -/
def modifyProcess (h : Host) (child : Nat) (f : Process → Process) : Host :=
  { h with process := h.process.modify child f }

theorem alive_iff {h : Host} {child : Nat} :
    h.alive child = true ↔ ∃ p, h.process.lookup child = some p ∧ p.alive = true := by
  unfold alive
  cases h.process.lookup child <;> simp

@[simp] theorem dropSender_instances (h : Host) (tx : Option Nat) :
    (h.dropSender tx).instances = h.instances := by cases tx <;> rfl

theorem dropSender_oneshot (h : Host) (tx : Option Nat) (k : Nat) :
    (h.dropSender tx).oneshot k = if tx = some k then .dropped else h.oneshot k := by
  cases tx with
  | none => simp [dropSender]
  | some tx =>
    by_cases hk : k = tx
    · subst hk
      simp [dropSender]
    · have : tx ≠ k := fun e => hk e.symm
      simp [dropSender, Function.update_of_ne hk, this]

end Host

/-! ## `push_inbound` -/

/-- The sections of `push_inbound`. -/
inductive PushPc where
  /-- `complete_waiter`, first table. -/
  | complete
  /-- `complete_waiter`, second table. -/
  | forget (tx : Nat)
  /-- `tx.send`. -/
  | reply (tx : Nat)
  /-- The inbound queue. -/
  | enqueue
deriving DecidableEq, Repr

/-- One section of `push_inbound(id, msg)`; `none` when the call has returned. -/
def PushPc.step (id : String) (msg : SimToServer) (h : Host) : PushPc → Host × Option PushPc
  | .complete =>
    let (tx, instances) := h.instances.takeMatching msg
    ({ h with instances := instances }, some (match tx with
      | some tx => .forget tx
      | none => .enqueue))
  | .forget tx => ({ h with instances := h.instances.removeWaiterInstance msg.corr }, some (.reply tx))
  | .reply tx => (h.sendReply tx id msg, some .enqueue)
  | .enqueue => ({ h with instances := h.instances.enqueueInbound id msg }, none)

theorem PushPc.step_complete (id : String) (msg : SimToServer) (h : Host) :
    (PushPc.complete.step id msg h).2 =
      some ((h.instances.takeMatching msg).1.elim .enqueue .forget) := by
  unfold step
  cases h.instances.takeMatching msg with
  | mk tx instances => cases tx <;> rfl

/-! ## `remove_if` -/

/-- The sections of `remove_if`. -/
inductive RemovePc where
  /-- The map entry. -/
  | entry
  /-- `fail_waiters`: collect the corrs. -/
  | collect
  /-- `fail_waiters`: the corrs still to take. -/
  | next (rest : Finset UInt64)
  /-- `take_waiter(corr)`, after its second table. -/
  | take (corr : UInt64) (rest : Finset UInt64)
deriving DecidableEq

/-- One section of `remove_if(id, token)`; `none` when the call has returned. -/
def RemovePc.step (id : String) (token : Nat) (h : Host) :
    RemovePc → Choice → Option (Host × Option RemovePc)
  | .entry, .run =>
    some ({ h with instances := h.instances.removeEntry id token },
      if h.instances.owns id token then some .collect else none)
  | .collect, .run => some (h, some (.next (h.instances.waitersOf id)))
  | .next rest, .run => if rest = ∅ then some (h, none) else none
  | .next rest, .pick corr =>
    if corr ∈ rest then
      some ({ h with instances := h.instances.removeWaiterInstance corr },
        some (.take corr (rest.erase corr)))
    else none
  | .take corr rest, .run =>
    let (tx, instances) := h.instances.removeWaiter corr
    some (({ h with instances := instances } : Host).dropSender tx, some (.next rest))
  | _, _ => none

end CsmProxy
