import CsmProxy.Runtime.Sequential
import CsmProxy.Sessions.Steps

/-!
# Filtering on the wire

The host keeps the view of a session and tells the simulator the same view with
`heartbeat` added to a non-empty mask. `simulatorSends` is a simulator that obeys: it
leaves out what that view hides. Reading the filtered stream leaves the entry of the
session exactly as reading the whole stream does (`readLoop_wireFilter`), because
what the simulator leaves out is absorbed without effect (`Instance.absorb_eq_self`).
-/

namespace CsmProxy

open Foundations

/-- The simulator's rule for `SetSessionView`: an empty mask emits everything, and log
lines of an excluded component are omitted. -/
def simulatorSends (wirePaths excludeLogComponents : List String) (msg : SimToServer) : Bool :=
  InstanceMap.inboundVisible wirePaths msg && !InstanceMap.logExcluded excludeLogComponents msg

/-! ## What one message does to its entry -/

namespace Instance

/-- What `push_inbound` makes of the entry. -/
def enqueueInbound (inst : Instance) (msg : SimToServer) : Instance :=
  if !InstanceMap.inboundVisible inst.readMask msg then inst
  else if InstanceMap.logExcluded inst.excludeLogComponents msg then inst
  else { inst with inbound := inst.inbound.push msg }

/-- What `set_heartbeat` makes of the entry when its own stream receives `msg`. -/
def noteHeartbeat (inst : Instance) (msg : SimToServer) : Instance :=
  match msg.payload with
  | some (.heartbeat heartbeat) => { inst with lastHeartbeat := some heartbeat }
  | _ => inst

/-- What the read loop makes of the entry when it receives `msg`. -/
def absorb (inst : Instance) (msg : SimToServer) : Instance :=
  (inst.noteHeartbeat msg).enqueueInbound msg

/-- `inst'` is the same session under the same view. -/
structure SameView (inst inst' : Instance) : Prop where
  token : inst'.token = inst.token
  readMask : inst'.readMask = inst.readMask
  excludeLogComponents : inst'.excludeLogComponents = inst.excludeLogComponents

theorem enqueueInbound_sameView (inst : Instance) (msg : SimToServer) :
    inst.SameView (inst.enqueueInbound msg) := by
  unfold enqueueInbound
  split
  · exact ⟨rfl, rfl, rfl⟩
  · split <;> exact ⟨rfl, rfl, rfl⟩

theorem noteHeartbeat_sameView (inst : Instance) (msg : SimToServer) :
    inst.SameView (inst.noteHeartbeat msg) := by
  unfold noteHeartbeat
  split <;> exact ⟨rfl, rfl, rfl⟩

theorem absorb_sameView (inst : Instance) (msg : SimToServer) :
    inst.SameView (inst.absorb msg) := by
  have h₁ := inst.noteHeartbeat_sameView msg
  have h₂ := (inst.noteHeartbeat msg).enqueueInbound_sameView msg
  exact ⟨h₂.token.trans h₁.token, h₂.readMask.trans h₁.readMask,
    h₂.excludeLogComponents.trans h₁.excludeLogComponents⟩

theorem noteHeartbeat_eq_self {inst : Instance} {msg : SimToServer}
    (h : isHeartbeat msg = false) : inst.noteHeartbeat msg = inst := by
  unfold noteHeartbeat
  split
  · rename_i heartbeat hp
    have htrue : isHeartbeat msg = true := by
      unfold isHeartbeat
      rw [hp]
    rw [htrue] at h
    cases h
  · rfl

end Instance

/-- A heartbeat passes every mask that goes over the wire. -/
theorem inboundVisible_wire_heartbeat (paths : List String) {msg : SimToServer}
    (h : isHeartbeat msg = true) :
    InstanceMap.inboundVisible (wireSessionViewPaths paths) msg = true := by
  have hname : InstanceMap.inboundPayloadName msg = some "heartbeat" := by
    unfold isHeartbeat at h
    split at h
    · rename_i heartbeat hp
      rw [InstanceMap.inboundPayloadName, hp]
      rfl
    · cases h
  simp only [InstanceMap.inboundVisible, hname, Option.any_some, wireSessionViewPaths]
  split
  · rename_i hp
    exact hp
  · simp

/-- Any other message passes the wire mask as it passes the mask of the host. -/
theorem inboundVisible_wire {paths : List String} {msg : SimToServer}
    (h : isHeartbeat msg = false) :
    InstanceMap.inboundVisible (wireSessionViewPaths paths) msg =
      InstanceMap.inboundVisible paths msg := by
  have hname : InstanceMap.inboundPayloadName msg ≠ some "heartbeat" := by
    obtain ⟨seq, corr, payload⟩ := msg
    rcases payload with _ | (_ | _ | _ | _ | _ | _ | _ | _ | _) <;>
      simp_all [InstanceMap.inboundPayloadName, isHeartbeat]
  unfold wireSessionViewPaths
  split
  · rfl
  · rename_i hp
    rw [Bool.or_eq_true, not_or] at hp
    obtain ⟨hne, -⟩ := hp
    have hwire : (paths ++ ["heartbeat"]).isEmpty = false := by cases paths <;> rfl
    simp only [InstanceMap.inboundVisible, hwire, hne, Bool.false_or]
    cases hn : InstanceMap.inboundPayloadName msg with
    | none => rfl
    | some name =>
      have hname' : "heartbeat" ≠ name := fun he => hname (hn.trans (congrArg some he.symm))
      simp [hname']

/-- What the simulator leaves out would have had no effect. -/
theorem Instance.absorb_eq_self {inst : Instance} {msg : SimToServer}
    (h : simulatorSends (wireSessionViewPaths inst.readMask) inst.excludeLogComponents msg = false) :
    inst.absorb msg = inst := by
  unfold simulatorSends at h
  rw [Bool.and_eq_false_iff] at h
  have hbeat : isHeartbeat msg = false := by
    rcases h with hwire | hlog
    · by_contra hb
      rw [inboundVisible_wire_heartbeat _ (by simpa using hb)] at hwire
      cases hwire
    · obtain ⟨seq, corr, payload⟩ := msg
      rcases payload with _ | (_ | _ | _ | _ | _ | _ | _ | _ | _) <;>
        simp_all [isHeartbeat, InstanceMap.logExcluded]
  rw [absorb, noteHeartbeat_eq_self hbeat, enqueueInbound]
  rw [inboundVisible_wire hbeat] at h
  rcases h with hmask | hlog
  · simp [hmask]
  · replace hlog : InstanceMap.logExcluded inst.excludeLogComponents msg = true := by simpa using hlog
    simp [hlog]

/-! ## The read loop -/

theorem Host.lookup_pushInbound {h : Host} {id : String} {inst : Instance} (msg : SimToServer)
    (hid : h.instances.inner.lookup id = some inst) :
    (h.pushInbound id msg).instances.inner.lookup id = some (inst.enqueueInbound msg) := by
  change ((h.completeWaiter id msg).instances.enqueueInbound id msg).inner.lookup id = _
  rw [InstanceMap.enqueueInbound, InstanceMap.lookup_modify, if_pos rfl, completeWaiter_inner, hid]
  rfl

namespace Session

variable {s : Session}

theorem lookup_receive {h : Host} {inst : Instance} (msg : SimToServer)
    (hid : h.instances.inner.lookup s.register.instanceId = some inst)
    (htoken : inst.token = s.token) :
    (s.receive h msg).instances.inner.lookup s.register.instanceId = some (inst.absorb msg) := by
  unfold receive
  split
  · rename_i heartbeat hp
    refine Host.lookup_pushInbound msg ?_
    change (h.instances.setHeartbeat ..).inner.lookup _ = _
    rw [InstanceMap.setHeartbeat, InstanceMap.lookup_modify, if_pos rfl, hid, Option.map_some,
      if_pos htoken, Instance.noteHeartbeat, hp]
  · rename_i hne
    have hbeat : isHeartbeat msg = false := by
      unfold isHeartbeat
      split
      · rename_i heartbeat hp
        exact (hne heartbeat hp).elim
      · rfl
    rw [Instance.absorb, Instance.noteHeartbeat_eq_self hbeat]
    exact Host.lookup_pushInbound msg hid

/-- A stream that owns its entry absorbs its messages one after the other. -/
theorem lookup_readLoop {h : Host} {inst : Instance} {stream : List SimToServer}
    (hid : h.instances.inner.lookup s.register.instanceId = some inst)
    (htoken : inst.token = s.token) (hstream : ∀ msg ∈ stream, isGoodbye msg = false) :
    (s.readLoop h stream).instances.inner.lookup s.register.instanceId =
      some (stream.foldl Instance.absorb inst) := by
  induction stream generalizing h inst with
  | nil => exact hid
  | cons msg rest ih =>
    obtain ⟨hmsg, hrest⟩ := List.forall_mem_cons.mp hstream
    have hown : h.instances.owns s.register.instanceId s.token = true :=
      InstanceMap.owns_eq_true.mpr ⟨inst, hid, htoken⟩
    rw [readLoop, if_pos hown, hmsg]
    exact ih (lookup_receive msg hid htoken) ((inst.absorb_sameView msg).token.trans htoken) hrest

end Session

theorem foldl_absorb_filter (inst : Instance) (stream : List SimToServer) :
    (stream.filter (simulatorSends (wireSessionViewPaths inst.readMask)
        inst.excludeLogComponents)).foldl Instance.absorb inst =
      stream.foldl Instance.absorb inst := by
  generalize hm : inst.readMask = paths, he : inst.excludeLogComponents = excluded
  induction stream generalizing inst with
  | nil => rfl
  | cons msg rest ih =>
    subst hm he
    have hview := inst.absorb_sameView msg
    have hrest := ih (inst.absorb msg) hview.readMask hview.excludeLogComponents
    rw [List.foldl_cons, ← hrest, List.filter_cons]
    split
    · rfl
    · rename_i hdrop
      rw [Instance.absorb_eq_self (by simpa using hdrop)]

/-- **Filtering on the wire.** A stream that owns the entry `inst` leaves the same entry
behind, its queue and last heartbeat included, whether the simulator sends everything
or only what the wire view of the entry lets through. -/
theorem readLoop_wireFilter {s : Session} {h : Host} {inst : Instance} {stream : List SimToServer}
    (hid : h.instances.inner.lookup s.register.instanceId = some inst)
    (htoken : inst.token = s.token) (hstream : ∀ msg ∈ stream, Session.isGoodbye msg = false) :
    ∃ inst', (s.readLoop h stream).instances.inner.lookup s.register.instanceId = some inst' ∧
      (s.readLoop h (stream.filter (simulatorSends (wireSessionViewPaths inst.readMask)
        inst.excludeLogComponents))).instances.inner.lookup s.register.instanceId = some inst' := by
  refine ⟨_, Session.lookup_readLoop hid htoken hstream, ?_⟩
  have hsent : ∀ msg ∈ stream.filter (simulatorSends (wireSessionViewPaths inst.readMask)
      inst.excludeLogComponents), Session.isGoodbye msg = false := fun msg hmsg =>
    hstream msg (List.mem_of_mem_filter hmsg)
  rw [Session.lookup_readLoop hid htoken hsent, foldl_absorb_filter]

/-- A session of `a` with a queue of two under the view `log` without `MEM`. -/
def viewedInstance : Instance :=
  { InstanceMap.newInstance 1 { instanceId := "a" } 2 (.new 2) with
    readMask := ["log"], excludeLogComponents := ["MEM"] }

def viewedHost : Host := { instances := { inner := Finmap.singleton "a" viewedInstance } }

def viewedSession : Session := ⟨.external, { instanceId := "a" }, 1, [], .next⟩

/-- A heartbeat, an ack, a line of `MEM` and a line of `ACT`. -/
def viewedStream : List SimToServer :=
  [{ payload := some (.heartbeat { framebufferGeneration := 42 }) },
    { corr := 7, payload := some (.inputAck { accepted := true }) },
    { payload := some (.log { component := "MEM" }) },
    { payload := some (.log { component := "ACT" }) }]

/-- The simulator sends the first and the last message only. -/
theorem readLoop_wireFilter_logs :
    ∃ inst', (viewedSession.readLoop viewedHost viewedStream).instances.inner.lookup "a" =
        some inst' ∧
      (viewedSession.readLoop viewedHost
        [{ payload := some (.heartbeat { framebufferGeneration := 42 }) },
          { payload := some (.log { component := "ACT" }) }]).instances.inner.lookup "a" =
        some inst' := by
  have hid : viewedHost.instances.inner.lookup viewedSession.register.instanceId =
      some viewedInstance := Finmap.lookup_singleton_eq
  have hstream : ∀ msg ∈ viewedStream, Session.isGoodbye msg = false := by decide
  have hsent : viewedStream.filter (simulatorSends
      (wireSessionViewPaths viewedInstance.readMask) viewedInstance.excludeLogComponents) =
      [{ payload := some (.heartbeat { framebufferGeneration := 42 }) },
        { payload := some (.log { component := "ACT" }) }] := by decide
  have hboth := readLoop_wireFilter hid rfl hstream
  rwa [hsent] at hboth

end CsmProxy
