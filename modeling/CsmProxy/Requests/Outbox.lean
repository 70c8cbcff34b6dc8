import CsmProxy.Foundations.Channels
import CsmProxy.Requests.Traffic

/-!
# What a section does to the outbound channels

`InstanceMap.outbox` is what the outbound channels of the connected streams hold. A stream
whose entry is replaced or removed goes on receiving what is left in its channel, so `Holds`
counts the detached channels too. A section puts one envelope on a channel, takes one from it,
opens a channel, drops the sender of one, or leaves all as they are (`ServerTask.step_outbox`).
-/

namespace CsmProxy

open Foundations

/-- The stream that is connected under the id, and what its outbound channel holds. -/
def InstanceMap.outbox (m : InstanceMap) (id : String) : Option (Nat × List ServerToSim) :=
  (m.inner.lookup id).map fun inst => (inst.token, inst.outbound.queued)

/-- The channel of the stream with the token holds `q`: its sender is in the map, or it has been
dropped. -/
def InstanceMap.Holds (m : InstanceMap) (token : Nat) (q : List ServerToSim) : Prop :=
  (∃ id, m.outbox id = some (token, q)) ∨ m.detached.lookup token = some q

namespace InstanceMap

/-- The outbound channels, connected and detached, are what they were. -/
structure SameChannels (m m' : InstanceMap) : Prop where
  outbox : m'.outbox = m.outbox
  detached : m'.detached = m.detached

theorem SameChannels.refl (m : InstanceMap) : m.SameChannels m := ⟨rfl, rfl⟩

theorem outbox_insert {m m' : InstanceMap} {id : String} {inst : Instance}
    (h : m'.inner = m.inner.insert id inst) :
    m'.outbox = Function.update m.outbox id (some (inst.token, inst.outbound.queued)) := by
  funext id'
  rw [outbox, h]
  simp only [outbox, HashMap.lookup_insert_ite, Function.update_apply]
  split <;> rfl

theorem outbox_insertInstance (m : InstanceMap) (token : Nat) (register : Register)
    (inboundCap outboundCap : UInt64) :
    (m.insertInstance token register inboundCap (.new outboundCap)).outbox =
      Function.update m.outbox register.instanceId (some (token, [])) := by
  have hinner : (m.insertInstance token register inboundCap (.new outboundCap)).inner =
      m.inner.insert register.instanceId
        (newInstance token register inboundCap (.new outboundCap)) := rfl
  exact outbox_insert hinner

/-- What is not about the outbound channel leaves it alone. -/
theorem sameChannels_modify {m : InstanceMap} {id : String} {f : Instance → Instance}
    (hf : ∀ inst : Instance, (f inst).token = inst.token ∧
      (f inst).outbound.queued = inst.outbound.queued) :
    m.SameChannels (m.modify id f) := by
  refine ⟨?_, rfl⟩
  funext id'
  rw [outbox, outbox, lookup_modify]
  split
  · cases m.inner.lookup id' with
    | none => rfl
    | some inst => simp [hf inst]
  · rfl

theorem sameChannels_tryRecvInbound (m : InstanceMap) (id : String) :
    m.SameChannels (m.tryRecvInbound id).2 := by
  unfold tryRecvInbound
  split
  · exact .refl m
  · rename_i inst hinst
    refine ⟨(outbox_insert rfl).trans (Function.update_eq_self_iff.mpr ?_), rfl⟩
    simp [outbox, hinst]

theorem sameChannels_enqueueInbound (m : InstanceMap) (id : String) (msg : SimToServer) :
    m.SameChannels (m.enqueueInbound id msg) := by
  refine sameChannels_modify fun inst => ?_
  repeat' split
  all_goals exact ⟨rfl, rfl⟩

theorem sameChannels_takeMatching (m : InstanceMap) (msg : SimToServer) :
    m.SameChannels (m.takeMatching msg).2 := by
  unfold takeMatching
  repeat' split
  all_goals exact ⟨rfl, rfl⟩

theorem sameChannels_setHeartbeat (m : InstanceMap) (id : String) (token : Nat) (hb : Heartbeat) :
    m.SameChannels (m.setHeartbeat id token hb) := by
  refine sameChannels_modify fun inst => ?_
  split <;> exact ⟨rfl, rfl⟩

theorem outbox_removeEntry (m : InstanceMap) (id : String) (token : Nat) :
    m.removeEntry id token = m ∨
      ((m.removeEntry id token).outbox = Function.update m.outbox id none ∧
        (m.removeEntry id token).detached = m.release id) := by
  unfold removeEntry
  split
  · refine .inr ⟨?_, rfl⟩
    funext id'
    simp only [outbox, HashMap.lookup_erase_ite, Function.update_apply]
    split <;> rfl
  · exact .inl rfl

theorem outbox_trySend {m m' : InstanceMap} {id : String} {msg : ServerToSim}
    (h : m.trySend id msg = .ok m') :
    ∃ token q, m.outbox id = some (token, q) ∧
      m'.outbox = Function.update m.outbox id (some (token, q ++ [msg])) ∧
      m'.detached = m.detached := by
  unfold trySend at h
  split at h
  · cases h
  · rename_i inst hinst
    split at h
    · cases h
    · rename_i outbound hsend
      cases h
      refine ⟨inst.token, inst.outbound.queued, by simp [outbox, hinst], ?_, rfl⟩
      rw [outbox_insert rfl]
      unfold Outbound.trySend at hsend
      split at hsend <;> cases hsend
      rfl

theorem outbox_recv (m : InstanceMap) (id : String) :
    (m.modify id fun inst => { inst with outbound := inst.outbound.recv }).outbox =
      Function.update m.outbox id ((m.outbox id).map fun e => (e.1, e.2.tail)) := by
  funext id'
  rw [outbox, lookup_modify, Function.update_apply]
  split
  · rename_i hid
    subst hid
    cases hl : m.inner.lookup id' <;> simp [outbox, hl, Outbound.recv]
  · rfl

/-- What a detached channel holds once the sender of the entry of `id` has been dropped. -/
theorem lookup_release (m : InstanceMap) (id : String) (token : Nat) :
    (m.release id).lookup token =
      ((m.outbox id).bind fun e => if e.1 = token then some e.2 else none).or
        (m.detached.lookup token) := by
  unfold release outbox
  cases m.inner.lookup id with
  | none => rfl
  | some inst =>
    rw [HashMap.lookup_insert_ite, Option.map_some, Option.bind_some]
    by_cases h : inst.token = token
    · subst h
      simp
    · rw [if_neg h, if_neg (Ne.symm h)]
      rfl

theorem of_lookup_release {m : InstanceMap} {id : String} {token : Nat} {q : List ServerToSim}
    (h : (m.release id).lookup token = some q) :
    m.outbox id = some (token, q) ∨ m.detached.lookup token = some q := by
  rw [lookup_release] at h
  cases hid : m.outbox id with
  | none =>
    rw [hid] at h
    exact .inr h
  | some e =>
    obtain ⟨token', q'⟩ := e
    rw [hid, Option.bind_some] at h
    split at h
    · rename_i htoken
      obtain rfl : token' = token := htoken
      obtain rfl : q' = q := Option.some.inj h
      exact .inl rfl
    · exact .inr h

section

variable {m m' : InstanceMap} {id : String} {next : Option (Nat × List ServerToSim)}

/-- What a channel holds after the entry of `id` has given way, it held before, or it is new. -/
theorem of_holds_release (outbox : m'.outbox = Function.update m.outbox id next)
    (detached : m'.detached = m.release id) {token : Nat} {q : List ServerToSim}
    (h : m'.Holds token q) : m.Holds token q ∨ next = some (token, q) := by
  rcases h with ⟨id', hid⟩ | hleft
  · rw [outbox, Function.update_apply] at hid
    split at hid
    · exact .inr hid
    · exact .inl (.inl ⟨id', hid⟩)
  · rw [detached] at hleft
    rcases of_lookup_release hleft with hid | hleft
    · exact .inl (.inl ⟨id, hid⟩)
    · exact .inl (.inr hleft)

/-- No channel is lost when the entry of `id` gives way. -/
theorem holds_release (outbox : m'.outbox = Function.update m.outbox id next)
    (detached : m'.detached = m.release id) {token : Nat} {q : List ServerToSim}
    (h : m.Holds token q) : ∃ q', m'.Holds token q' := by
  have hleft : ∀ q', (m.release id).lookup token = some q' → m'.Holds token q' := by
    intro q' hq'
    exact .inr (detached ▸ hq')
  rcases h with ⟨id', hid⟩ | hold
  · by_cases hsame : id' = id
    · subst hsame
      refine ⟨q, hleft q ?_⟩
      simp [lookup_release, hid]
    · refine ⟨q, .inl ⟨id', ?_⟩⟩
      rw [outbox, Function.update_of_ne hsame, hid]
  · cases hrelease : (m.release id).lookup token with
    | some q' => exact ⟨q', hleft q' hrelease⟩
    | none =>
      rw [lookup_release, hold] at hrelease
      simp at hrelease

end

theorem tokenOf_eq_outbox (m : InstanceMap) (id : String) :
    m.tokenOf id = (m.outbox id).map Prod.fst := by
  rw [tokenOf, outbox, Option.map_map]
  rfl

end InstanceMap

/-! ## The event of a section -/

/-- What a request of the server is to the outbound channels. -/
def RequestEvent.channelEvent : RequestEvent → Option (ChannelEvent Nat ServerToSim)
  | .queued _ _ (some token) msg => some (.put token msg)
  | _ => none

/-- A stream takes the next envelope from its outbound channel. -/
def delivery (h : Host) : ServerTask → Choice → Option (Nat × ServerToSim)
  | .task .environment, .recv id =>
    (h.instances.outbox id).bind fun (token, q) => q.head?.map fun msg => (token, msg)
  | .task .environment, .drain token =>
    (h.instances.detached.lookup token).bind fun q => q.head?.map fun msg => (token, msg)
  | _, _ => none

/-- A request is registered or queued, or a stream takes an envelope from its channel. -/
inductive TrafficEvent where
  | request (e : RequestEvent)
  | delivered (token : Nat) (msg : ServerToSim)
deriving DecidableEq

/-- What the event is to the outbound channels. -/
def TrafficEvent.channelEvent : TrafficEvent → Option (ChannelEvent Nat ServerToSim)
  | .request e => e.channelEvent
  | .delivered token msg => some (.take token msg)

/-- The requests of the server, and what the streams take. -/
def noteTraffic : Note Host ServerTask Choice TrafficEvent := fun me h t i =>
  match t.stage.note me h with
  | some e => some (.request e)
  | none => (delivery h t i).map fun (token, msg) => .delivered token msg

/-- What the section of task `me` is to the outbound channels. -/
def channelEvent (me : Nat) (h : Host) (t : ServerTask) (i : Choice) :
    Option (ChannelEvent Nat ServerToSim) :=
  (noteTraffic me h t i).bind TrafficEvent.channelEvent

/-- Only the environment makes a stream take something. -/
theorem channelEvent_of_silent {me : Nat} {h : Host} {t : ServerTask} {i : Choice}
    (silent : delivery h t i = none) :
    channelEvent me h t i = (t.stage.note me h).bind RequestEvent.channelEvent := by
  unfold channelEvent noteTraffic
  rw [silent]
  cases t.stage.note me h <;> rfl

/-- How a section changes what the outbound channels hold. -/
inductive OutboxStep (s : Stage) (m m' : InstanceMap) : Option (ChannelEvent Nat ServerToSim) → Prop
  | same (same : m.SameChannels m') : OutboxStep s m m' none
  | put {id : String} {token : Nat} {q : List ServerToSim} {msg : ServerToSim}
      (entry : m.outbox id = some (token, q))
      (next : m'.outbox = Function.update m.outbox id (some (token, q ++ [msg])))
      (detached : m'.detached = m.detached) : OutboxStep s m m' (some (.put token msg))
  | take {id : String} {token : Nat} {q : List ServerToSim} {msg : ServerToSim}
      (entry : m.outbox id = some (token, msg :: q))
      (next : m'.outbox = Function.update m.outbox id (some (token, q)))
      (detached : m'.detached = m.detached) : OutboxStep s m m' (some (.take token msg))
  | drain {token : Nat} {q : List ServerToSim} {msg : ServerToSim}
      (left : m.detached.lookup token = some (msg :: q)) (same : m'.outbox = m.outbox)
      (detached : m'.detached = m.detached.insert token q) :
    OutboxStep s m m' (some (.take token msg))
  | enter {sn : Session} (handler : s = .task (.session sn)) (pc : sn.pc = .insert)
      (next : m'.outbox = Function.update m.outbox sn.register.instanceId (some (sn.token, [])))
      (detached : m'.detached = m.release sn.register.instanceId) : OutboxStep s m m' none
  | leave {id : String} (next : m'.outbox = Function.update m.outbox id none)
      (detached : m'.detached = m.release id) : OutboxStep s m m' none

namespace OutboxStep

variable {s : Stage} {m m' : InstanceMap} {event : Option (ChannelEvent Nat ServerToSim)}

/-- No section loses a channel. -/
theorem holds (hs : OutboxStep s m m' event) {token : Nat} {q : List ServerToSim}
    (h : m.Holds token q) : ∃ q', m'.Holds token q' := by
  cases hs with
  | same same =>
    rcases h with ⟨id, hid⟩ | hleft
    · exact ⟨q, .inl ⟨id, same.outbox ▸ hid⟩⟩
    · exact ⟨q, .inr (same.detached ▸ hleft)⟩
  | @put id token' q₀ msg entry next detached | @take id token' q₀ msg entry next detached =>
    rcases h with ⟨id', hid⟩ | hleft
    · by_cases hsame : id' = id
      · subst hsame
        obtain ⟨rfl, -⟩ := Prod.mk.inj (Option.some.inj (entry.symm.trans hid))
        exact ⟨_, .inl ⟨id', by rw [next, Function.update_self]⟩⟩
      · exact ⟨q, .inl ⟨id', by rw [next, Function.update_of_ne hsame, hid]⟩⟩
    · exact ⟨q, .inr (detached ▸ hleft)⟩
  | @drain token' q₀ msg left same detached =>
    rcases h with ⟨id, hid⟩ | hleft
    · exact ⟨q, .inl ⟨id, same ▸ hid⟩⟩
    · by_cases htoken : token = token'
      · exact ⟨q₀, .inr (by rw [detached, HashMap.lookup_insert_ite, if_pos htoken])⟩
      · exact ⟨q, .inr (by rw [detached, HashMap.lookup_insert_ite, if_neg htoken, hleft])⟩
  | enter _ _ next detached | leave next detached => exact InstanceMap.holds_release next detached h

/-- A detached channel was a channel before. -/
theorem of_detached (hs : OutboxStep s m m' event) {token : Nat} {q : List ServerToSim}
    (h : m'.detached.lookup token = some q) : ∃ q', m.Holds token q' := by
  cases hs with
  | same same => exact ⟨q, .inr (same.detached ▸ h)⟩
  | put _ _ detached | take _ _ detached => exact ⟨q, .inr (detached ▸ h)⟩
  | @drain token' q₀ msg left same detached =>
    rw [detached, HashMap.lookup_insert_ite] at h
    split at h
    · rename_i htoken
      exact ⟨msg :: q₀, .inr (htoken ▸ left)⟩
    · exact ⟨q, .inr h⟩
  | enter _ _ next detached | leave next detached =>
    rw [detached] at h
    rcases InstanceMap.of_lookup_release h with hid | hleft
    · exact ⟨q, .inl ⟨_, hid⟩⟩
    · exact ⟨q, .inr hleft⟩

end OutboxStep

theorem noteQueued_outbox {s : Stage} {tx : Nat} {h : Host} {id : String} {msg : ServerToSim}
    {m : InstanceMap} (sent : h.instances.trySend id msg = .ok m) :
    OutboxStep s h.instances m ((noteQueued tx h id msg).bind RequestEvent.channelEvent) := by
  obtain ⟨token, q, hentry, hnext, hdetached⟩ := InstanceMap.outbox_trySend sent
  have hnote : noteQueued tx h id msg = some (.queued tx id (some token) msg) := by
    rw [noteQueued, sent, InstanceMap.tokenOf_eq_outbox, hentry]
    rfl
  rw [hnote]
  exact .put hentry hnext hdetached

theorem EnqueuePc.step_outbox (s : Stage) (tx : Nat) (ackRequested : Bool) (payload : ServerPayload)
    (h : Host) (pc : EnqueuePc) :
    OutboxStep s h.instances (pc.step ackRequested payload h).1.instances
      ((pc.note tx h ackRequested payload).bind RequestEvent.channelEvent) := by
  have hsection := step_section ackRequested payload h pc
  generalize (pc.step ackRequested payload h).1 = g at hsection ⊢
  generalize (pc.step ackRequested payload h).2 = out at hsection
  cases hsection with
  | queued sent => exact noteQueued_outbox sent
  | @refused id corr failure text refusal =>
    have hnote : EnqueuePc.note tx h ackRequested payload (.trySend id corr) = none := by
      rw [EnqueuePc.note, noteQueued, refusal]
    rw [hnote]
    exact .same ⟨rfl, rfl⟩
  | _ => exact .same ⟨rfl, rfl⟩

theorem SendCall.step_outbox (s : Stage) {tx : Nat} {h h' : Host} {c c' : SendCall} {i : Choice}
    (hs : c.step tx h i = some (h', c')) :
    OutboxStep s h.instances h'.instances
      ((c.note tx h).bind RequestEvent.channelEvent) := by
  unfold SendCall.note
  cases step_section hs with
  | queued pc sent =>
    rw [pc]
    exact noteQueued_outbox sent
  | refused pc refusal =>
    rw [pc]
    simp only [noteQueued, refusal]
    exact .same ⟨rfl, rfl⟩
  | insertWaiter pc | take pc =>
    rw [pc, Host.dropSender_instances]
    exact .same ⟨rfl, rfl⟩
  | connected pc | unknown pc | insertInstance pc | forget pc | answered pc | disconnected pc
  | timedOut pc =>
    rw [pc]
    exact .same ⟨rfl, rfl⟩

/-! ## The tasks -/

theorem PushPc.step_sameChannels (id : String) (msg : SimToServer) (h : Host) (pc : PushPc) :
    h.instances.SameChannels (pc.step id msg h).1.instances := by
  cases pc with
  | complete => exact h.instances.sameChannels_takeMatching msg
  | forget tx => exact ⟨rfl, rfl⟩
  | reply tx => exact .refl _
  | enqueue => exact h.instances.sameChannels_enqueueInbound id msg

theorem RemovePc.step_outbox {s : Stage} {id : String} {token : Nat} {h h' : Host} {pc : RemovePc}
    {i : Choice} {out : Option RemovePc} (hs : pc.step id token h i = some (h', out)) :
    OutboxStep s h.instances h'.instances none := by
  cases step_section hs with
  | entry =>
    rcases h.instances.outbox_removeEntry id token with hsame | ⟨hgone, hleft⟩
    · exact .same (by rw [hsame]; exact .refl _)
    · exact .leave hgone hleft
  | take =>
    rw [Host.dropSender_instances]
    exact .same ⟨rfl, rfl⟩
  | _ => exact .same ⟨rfl, rfl⟩

theorem Session.step_outbox {h h' : Host} {s s' : Session} {i : Choice}
    (hs : s.step h i = some (h', s')) :
    OutboxStep (.task (.session s)) h.instances h'.instances none := by
  cases step_section hs with
  | insert pc =>
    exact .enter rfl pc (InstanceMap.outbox_insertInstance ..) rfl
  | heartbeat pc => exact .same (h.instances.sameChannels_setHeartbeat ..)
  | @push msg sub _ out pc call =>
    have hsame := PushPc.step_sameChannels s.register.instanceId msg h sub
    rw [call] at hsame
    exact .same hsame
  | removeGoodbye pc call | remove pc call => exact RemovePc.step_outbox call
  | allocToken pc => exact .same ⟨rfl, rfl⟩
  | _ => exact .same (.refl _)

theorem ObserveCall.step_sameChannels {me : Nat} {h h' : Host} {c c' : ObserveCall} {i : Choice}
    (hs : c.step me h i = some (h', c')) : h.instances.SameChannels h'.instances := by
  have hrecv := h.instances.sameChannels_tryRecvInbound c.id
  cases step_cases hs with
  | pop hpc recv | drained hpc recv => rwa [recv] at hrecv
  | _ => exact .refl _

theorem ViewCall.step_outbox {me : Nat} {h h' : Host} {c c' : ViewCall} {i : Choice}
    (hs : c.step h i = some (h', c')) :
    OutboxStep (.task (.view c)) h.instances h'.instances
      (((Stage.task (.view c)).note me h).bind RequestEvent.channelEvent) := by
  obtain ⟨paths, exclude, pc⟩ := c
  cases i with
  | run =>
    cases pc with
    | enqueue id pc =>
      have hpc := EnqueuePc.step_outbox (.task (.view ⟨paths, exclude, .enqueue id pc⟩)) (own me)
        false (.setSessionView (wireSessionViewPaths paths) exclude) h pc
      simp only [step] at hs
      split at hs <;> (rename_i he; rw [he] at hpc; cases hs; exact hpc)
    | default | resolve id =>
      simp only [step] at hs
      split at hs <;> (cases hs; exact .same ⟨rfl, rfl⟩)
    | setReadMask id corr | setExclude id corr =>
      cases hs
      exact .same (InstanceMap.sameChannels_modify fun _ => ⟨rfl, rfl⟩)
    | returned result => cases hs
  | _ => cases pc <;> cases hs

theorem EnqueueCall.step_outbox {me : Nat} {h h' : Host} {c c' : EnqueueCall} {i : Choice}
    (hs : c.step h i = some (h', c')) :
    OutboxStep (.task (.enqueue c)) h.instances h'.instances
      (((Stage.task (.enqueue c)).note me h).bind RequestEvent.channelEvent) := by
  obtain ⟨ack, payload, pc, result⟩ := c
  cases i with
  | run =>
    cases result with
    | none =>
      have hpc := EnqueuePc.step_outbox (.task (.enqueue ⟨ack, payload, pc, none⟩)) (own me) ack
        payload h pc
      simp only [step] at hs
      split at hs <;> (rename_i he; rw [he] at hpc; cases hs; exact hpc)
    | some result => cases hs
  | _ => cases result <;> cases hs

theorem ShutdownCall.step_outbox {me me' : Nat} {h h' : Host} {c c' : ShutdownCall} {i : Choice}
    (hs : c.step me' h i = some (h', c')) :
    OutboxStep (.task (.shutdown c)) h.instances h'.instances
      (((Stage.task (.shutdown c)).note me h).bind RequestEvent.channelEvent) := by
  obtain ⟨instanceId, pc⟩ := c
  cases pc with
  | enqueue pc =>
    have hpc := EnqueuePc.step_outbox (.task (.shutdown ⟨instanceId, .enqueue pc⟩)) (own me) false
      .shutdown h pc
    cases i <;> simp only [step] at hs
    case run => split at hs <;> (rename_i he; rw [he] at hpc; cases hs; exact hpc)
    all_goals cases hs
  | choose queued =>
    cases i <;> simp only [step] at hs
    case run => split at hs <;> (cases hs; exact .same ⟨rfl, rfl⟩)
    all_goals cases hs
  | reap queued id pc =>
    obtain ⟨⟨g, out⟩, hp, he⟩ := Option.map_eq_some_iff.mp hs
    cases he
    obtain ⟨s, p, rfl⟩ := ReapPc.step_footprint hp
    exact .same ⟨rfl, rfl⟩
  | returned queued => cases i <;> cases hs

theorem RequestPc.step_outbox {me k : Nat} {h h' : Host} {i : Choice} {r : ToolRequest}
    {pc : RequestPc} {out : RequestPc ⊕ Except String ToolReply}
    (hs : pc.step (channel me k) r h i = some (h', out)) :
    OutboxStep (.request k r pc) h.instances h'.instances
      (((Stage.request k r pc).note me h).bind RequestEvent.channelEvent) := by
  cases pc with
  | enqueue q =>
    cases i <;> simp only [step] at hs
    case run =>
      obtain ⟨rfl, -⟩ := Prod.mk.inj (Option.some.inj hs)
      exact EnqueuePc.step_outbox ..
    all_goals cases hs
  | wait w pc =>
    obtain ⟨⟨g, res⟩, hpc, he⟩ := Option.map_eq_some_iff.mp hs
    cases he
    cases WaitPc.step_section hpc with
    | send hcall => exact SendCall.step_outbox _ hcall
    | _ => exact .same ⟨rfl, rfl⟩

theorem environmentStep_outbox {me : Nat} {h h' : Host} {i : Choice}
    (hs : environmentStep h i = some h') :
    OutboxStep (.task .environment) h.instances h'.instances
      (channelEvent me h (.task .environment) i) := by
  cases i with
  | tick ns | exited child => cases hs; exact .same ⟨rfl, rfl⟩
  | hangUp id =>
    cases hs
    exact .same (InstanceMap.sameChannels_modify fun _ => ⟨rfl, rfl⟩)
  | recv id =>
    cases hs
    have hevent : channelEvent me h (.task .environment) (.recv id) =
        ((h.instances.outbox id).bind fun e => e.2.head?.map (ChannelEvent.take e.1)) := by
      change ((((h.instances.outbox id).bind fun e => e.2.head?.map fun msg => (e.1, msg)).map
        fun e => TrafficEvent.delivered e.1 e.2).bind TrafficEvent.channelEvent) = _
      cases h.instances.outbox id with
      | none => rfl
      | some e =>
        obtain ⟨token, q⟩ := e
        cases q <;> rfl
    rw [hevent]
    have hnext := h.instances.outbox_recv id
    cases hentry : h.instances.outbox id with
    | none =>
      rw [hentry, Option.map_none] at hnext
      exact .same ⟨hnext.trans (Function.update_eq_self_iff.mpr hentry.symm), rfl⟩
    | some e =>
      obtain ⟨token, q⟩ := e
      rw [hentry, Option.map_some] at hnext
      cases q with
      | nil => exact .same ⟨hnext.trans (Function.update_eq_self_iff.mpr hentry.symm), rfl⟩
      | cons msg q => exact .take hentry hnext rfl
  | drain token =>
    cases hs
    have hevent : channelEvent me h (.task .environment) (.drain token) =
        ((h.instances.detached.lookup token).bind fun q => q.head?.map (ChannelEvent.take token)) := by
      change ((((h.instances.detached.lookup token).bind fun q => q.head?.map fun msg =>
        (token, msg)).map fun e => TrafficEvent.delivered e.1 e.2).bind
          TrafficEvent.channelEvent) = _
      cases h.instances.detached.lookup token with
      | none => rfl
      | some q => cases q <;> rfl
    rw [hevent]
    cases hleft : h.instances.detached.lookup token with
    | none => exact .same ⟨rfl, HashMap.modify_of_none hleft⟩
    | some q =>
      have hnext := HashMap.modify_of_some (f := List.tail) hleft
      cases q with
      | nil => exact .same ⟨rfl, hnext.trans (HashMap.insert_of_lookup hleft)⟩
      | cons msg q => exact .drain hleft rfl hnext
  | _ => cases hs

theorem Task.step_outbox {me : Nat} {h h' : Host} {t t' : Task} {i : Choice}
    (hs : t.step (own me) h i = some (h', t')) (noSend : ∀ call, t ≠ .send call) :
    OutboxStep (.task t) h.instances h'.instances (channelEvent me h (.task t) i) := by
  cases t with
  | send call => exact absurd rfl (noSend call)
  | environment =>
    obtain ⟨g, hp, he⟩ := Option.map_eq_some_iff.mp hs
    cases he
    exact environmentStep_outbox hp
  | _ =>
    obtain ⟨⟨g, c'⟩, hp, he⟩ := Option.map_eq_some_iff.mp hs
    cases he
    first
      | exact Session.step_outbox hp
      | exact .same (ObserveCall.step_sameChannels hp)
      | (rw [channelEvent_of_silent (by rfl)]; exact ViewCall.step_outbox hp)
      | (rw [channelEvent_of_silent (by rfl)]; exact EnqueueCall.step_outbox hp)
      | (rw [channelEvent_of_silent (by rfl)]; exact ShutdownCall.step_outbox hp)
      | (obtain ⟨s, p, rfl⟩ := SupervisorCall.step_footprint hp; exact .same ⟨rfl, rfl⟩)
      | (obtain ⟨s, p, rfl⟩ := StartInstanceCall.step_footprint hp; exact .same ⟨rfl, rfl⟩)

/-- What one section of the server does to the outbound channels is the event it is. -/
theorem ServerTask.step_outbox {me : Nat} {h h' : Host} {t t' : ServerTask} {i : Choice}
    (hs : t.step me h i = some (h', t')) :
    OutboxStep t.stage h.instances h'.instances (channelEvent me h t i) := by
  have hsection := ServerTask.step_stage hs
  generalize t'.stage = s' at hsection
  by_cases htask : ∃ u, t = .task u
  · obtain ⟨u, rfl⟩ := htask
    generalize hst : (ServerTask.task u).stage = s at hsection
    cases hsection with
    | task noSend step =>
      cases hst
      exact Task.step_outbox step noSend
    | _ => cases hst
  · have hsilent : delivery h t i = none ∧ ∀ u, t.stage ≠ .task u := by
      cases t with
      | task u => exact absurd ⟨u, rfl⟩ htask
      | tool c | batch c =>
        refine ⟨rfl, fun u hst => ?_⟩
        simp only [ServerTask.stage] at hst
        split at hst <;> cases hst
    rw [channelEvent_of_silent hsilent.1]
    generalize t.stage = s at hsection hsilent
    cases hsection with
    | task noSend step => exact absurd rfl (hsilent.2 _)
    | resolving | refused | begins => exact .same ⟨rfl, rfl⟩
    | advances step | follows step | returns step => exact RequestPc.step_outbox step

end CsmProxy
