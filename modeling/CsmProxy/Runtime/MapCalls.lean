import CsmProxy.Runtime.Proxy

/-!
# Calls of the instance map

`InstanceMap` as a library: any number of calls of its methods by anybody, with any
arguments, run section by section (`mapCalls`), or with every method as one step
(`mapOperations`). The sections are the ones that the tasks of the proxy run.
-/

namespace CsmProxy

open Foundations

/-- The methods that are one section and do not concern the waiters. -/
inductive MapUpdate where
  | setHeartbeat (id : String) (token : Nat) (heartbeat : Heartbeat)
  | setReadMask (id : String) (paths : List String)
  | setExcludeLogComponents (id : String) (components : List String)
  | tryRecvInbound (id : String)
  | trySend (id : String) (msg : ServerToSim)
  | nextCorr
  | setDefaultInstance (id : Option String)
deriving DecidableEq

/-- The map after the method. -/
def MapUpdate.apply (m : InstanceMap) : MapUpdate → InstanceMap
  | .setHeartbeat id token heartbeat => m.setHeartbeat id token heartbeat
  | .setReadMask id paths => m.setReadMask id paths
  | .setExcludeLogComponents id components => m.setExcludeLogComponents id components
  | .tryRecvInbound id => (m.tryRecvInbound id).2
  | .trySend id msg =>
    match m.trySend id msg with
    | .ok m => m
    | .error _ => m
  | .nextCorr => m.takeCorr.2
  | .setDefaultInstance id => m.setDefaultInstance id

/-- A call of a method. `none` and `true` stand for a call that has returned. -/
inductive MapCall where
  | send (c : SendCall)
  | push (id : String) (msg : SimToServer) (pc : Option PushPc)
  | insert (register : Register) (inboundCap outboundCap : UInt64)
  | inserting (token : Nat) (register : Register) (inboundCap outboundCap : UInt64)
  | inserted (token : Nat) (register : Register)
  | removeIf (id : String) (token : Nat) (pc : Option RemovePc)
  | update (u : MapUpdate) (returned : Bool)
  | environment
deriving DecidableEq

namespace MapCall

/-- One critical section of the call of task `me`. -/
def step (me : Nat) (h : Host) (c : MapCall) (choice : Choice) : Option (Host × MapCall) :=
  match c, choice with
  | .send c, choice => (c.step me h choice).map fun (h, c) => (h, .send c)
  | .push id msg (some pc), .run =>
    let (h, pc) := pc.step id msg h
    some (h, .push id msg pc)
  | .insert register inboundCap outboundCap, .run =>
    let (token, instances) := h.instances.allocToken
    some ({ h with instances := instances }, .inserting token register inboundCap outboundCap)
  | .inserting token register inboundCap outboundCap, .run =>
    let instances := h.instances.insertInstance token register inboundCap (.new outboundCap)
    some ({ h with instances := instances }, .inserted token register)
  | .removeIf id token (some pc), choice =>
    (pc.step id token h choice).map fun (h, pc) => (h, .removeIf id token pc)
  | .update u false, .run => some ({ h with instances := u.apply h.instances }, .update u true)
  | .environment, choice => (environmentStep h choice).map fun h => (h, .environment)
  | _, _ => none

/-- The call has not taken a step yet. -/
def Fresh : MapCall → Prop
  | .send c => c = { instanceId := c.instanceId, msg := c.msg, timeout := c.timeout, kind := c.kind }
  | .push _ _ pc => pc = some .complete
  | .insert .. => True
  | .inserting .. | .inserted .. => False
  | .removeIf _ _ pc => pc = some .entry
  | .update _ returned => returned = false
  | .environment => True

/-- The call has not begun, is over, or is waiting for its reply. -/
def atRest : MapCall → Bool
  | .send c =>
    match c.pc with
    | .get | .await _ | .returned _ => true
    | _ => false
  | .push _ _ pc => pc = none ∨ pc = some .complete
  | .insert .. | .inserted .. => true
  | .inserting .. => false
  | .removeIf _ _ pc => pc = none ∨ pc = some .entry
  | .update .. => true
  | .environment => true

/-- The waiting call that the task makes. -/
def sending : MapCall → Option SendCall
  | .send c => some c
  | _ => none

theorem sending_eq_some {c : MapCall} {call : SendCall} :
    c.sending = some call ↔ c = .send call := by
  cases c <;> simp [sending]

end MapCall

/-- Calls of the instance map, section by section. -/
def mapCalls : Pool Host MapCall Choice where
  step := MapCall.step

theorem fire_call {c c' : Config Host MapCall} {me : Nat} {i : Choice}
    (hf : mapCalls.fire c me i = some c') :
    (c.task me).step me c.shared i = some (c'.shared, c'.task me) ∧
      ∀ t, t ≠ me → c'.task t = c.task t :=
  Pool.fire_step hf

/-- Calls of the instance map, each method in one step. -/
def mapOperations : Pool Host MapCall (List Choice) := mapCalls.atomic MapCall.atRest

/-- What happens operation by operation also happens section by section. -/
theorem reach_of_operations {ok : Pool.Guard Host MapCall (List Choice)}
    {a b : Config Host MapCall} (run : mapOperations.Reach ok a b) :
    mapCalls.Reach Pool.anyStep a b := Pool.reach_of_atomic run

/-- A new map on which no call has run. -/
structure MapBoot (c : Config Host MapCall) : Prop where
  shared : ∃ default config now, c.shared =
    { instances := InstanceMap.new.setDefaultInstance default, config := config, now := now }
  fresh : ∀ t, (c.task t).Fresh

/-- A new map on which `calls` are about to run and nothing else. -/
def newMapWith (calls : List MapCall) : Config Host MapCall :=
  .ofTasks { instances := InstanceMap.new.setDefaultInstance none } calls .environment

theorem mapBoot_newMapWith {calls : List MapCall} (h : ∀ c ∈ calls, c.Fresh) :
    MapBoot (newMapWith calls) where
  shared := ⟨none, {}, 0, rfl⟩
  fresh := Config.forall_ofTasks trivial h

end CsmProxy
