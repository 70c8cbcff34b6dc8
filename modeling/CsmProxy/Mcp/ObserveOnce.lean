import CsmProxy.Mcp.ToolSections

/-!
# `observe_json` with nothing in between

`McpServer::drain_observe` and `McpServer::observe_json` as sequential programs. The loop
of the drain is given one turn more than the queue is long, which is what it takes to
find the queue empty (`drain_spec`).
-/

namespace CsmProxy

open Foundations

namespace Host

/-- The loop of `drain_observe` in the call of task `me`, with `n` turns left. -/
def drain (me : Nat) (id : String) (mask : List String) : Nat → Host → List SimToServer × Host
  | 0, h => ([], h)
  | n + 1, h =>
    match h.instances.tryRecvInbound id with
    | (none, instances) => ([], { h with instances := instances })
    | (some msg, instances) =>
      let popped := { h with instances := instances, pops := h.pops ++ [(me, id, msg)] }
      let (events, h) := drain me id mask n popped
      (if InstanceMap.inboundVisible mask msg then msg :: events else events, h)

/-- What waits in the inbound queue of `id`. -/
def queued (h : Host) (id : String) : List SimToServer :=
  (h.instances.inner.lookup id).elim [] fun inst => inst.inbound.items

end Host

namespace McpServer

/-- `drain_observe` -/
def drainObserve (me : Nat) (h : Host) (instanceId : Option String) :
    Except ToolError (String × List SimToServer) × Host :=
  match resolve h.instances instanceId with
  | .error err => (.error err, h)
  | .ok snap =>
    let id := snap.register.instanceId
    let mask := (h.instances.readMask id).getD []
    let (events, h) := h.drain me id mask ((h.queued id).length + 1)
    (.ok (id, events), h)

/-- `observe_json` -/
def observeJson (me : Nat) (h : Host) (instanceId : Option String) :
    Except ToolError ObserveReply × Host :=
  match drainObserve me h instanceId with
  | (.error err, h) => (.error err, h)
  | (.ok (id, events), h) =>
    (.ok { instanceId := id, events := events, ui := heartbeatUi h.instances id,
           matched := none, timedOut := none }, h)

end McpServer

/-! ## What a drain returns and leaves -/

/-- The queue with nothing in it. -/
def InboundQueue.cleared (q : InboundQueue) : InboundQueue := .new q.cap

/-- The entry with nothing in its inbound queue. -/
def Instance.cleared (inst : Instance) : Instance := { inst with inbound := inst.inbound.cleared }

theorem InboundQueue.eq_cleared {q : InboundQueue} (h : q.items = []) : q = q.cleared := by
  obtain ⟨items, cap, bounded⟩ := q
  obtain rfl : items = [] := h
  rfl

namespace Host

/-- `h'` is `h` with an empty inbound queue at `id`. -/
structure Emptied (id : String) (h h' : Host) : Prop where
  lookup : ∀ id', h'.instances.inner.lookup id' =
    if id' = id then (h.instances.inner.lookup id).map Instance.cleared
    else h.instances.inner.lookup id'
  nextToken : h'.instances.nextToken = h.instances.nextToken
  defaultInstance : h'.instances.defaultInstance = h.instances.defaultInstance

variable {h : Host} {id : String}

theorem queued_eq {inst : Instance} (hid : h.instances.inner.lookup id = some inst) :
    h.queued id = inst.inbound.items := by
  rw [queued, hid]
  rfl

/-- Nothing to pop: the queue is empty and stays so. -/
theorem recv_none {m : InstanceMap} (hm : h.instances.tryRecvInbound id = (none, m)) :
    h.queued id = [] ∧ Emptied id h { h with instances := m } := by
  unfold InstanceMap.tryRecvInbound at hm
  cases hid : h.instances.inner.lookup id with
  | none =>
    rw [hid] at hm
    cases hm
    refine ⟨by rw [queued, hid]; rfl, fun id' => ?_, rfl, rfl⟩
    split
    · rename_i he
      rw [he, hid, Option.map_none]
    · rfl
  | some inst =>
    rw [hid] at hm
    obtain ⟨hhead, rfl⟩ := Prod.mk.inj hm
    have hitems : inst.inbound.items = [] := List.head?_eq_none_iff.mp hhead
    have hrest : inst.inbound.tryRecv.2 = inst.inbound.cleared := by
      have hnil : inst.inbound.tryRecv.2.items = [] := by simp [InboundQueue.tryRecv, hitems]
      exact InboundQueue.eq_cleared hnil
    refine ⟨(queued_eq hid).trans hitems, fun id' => ?_, rfl, rfl⟩
    change (h.instances.inner.insert id _).lookup id' = _
    rw [HashMap.lookup_insert_ite, hid, Option.map_some, hrest, Instance.cleared]

/-- One message popped: it was the first, and an emptied queue is the same before and after. -/
theorem recv_some {m : InstanceMap} {msg : SimToServer}
    (pops : List (Nat × String × SimToServer))
    (hm : h.instances.tryRecvInbound id = (some msg, m)) :
    h.queued id = msg :: ({ h with instances := m, pops := pops } : Host).queued id ∧
      ∀ h', Emptied id { h with instances := m, pops := pops } h' → Emptied id h h' := by
  unfold InstanceMap.tryRecvInbound at hm
  cases hid : h.instances.inner.lookup id with
  | none =>
    rw [hid] at hm
    cases hm
  | some inst =>
    rw [hid] at hm
    obtain ⟨hhead, rfl⟩ := Prod.mk.inj hm
    have hlookup : ∀ id', (h.instances.inner.insert id
        { inst with inbound := inst.inbound.tryRecv.2 }).lookup id' =
        if id' = id then some { inst with inbound := inst.inbound.tryRecv.2 }
          else h.instances.inner.lookup id' := fun id' => HashMap.lookup_insert_ite ..
    constructor
    · rw [queued_eq hid, queued_eq ((hlookup id).trans (if_pos rfl))]
      exact List.eq_cons_of_mem_head? hhead
    · rintro h' ⟨hl, ht, hd⟩
      refine ⟨fun id' => ?_, ht, hd⟩
      rw [hl, hlookup, hlookup, if_pos rfl, hid]
      split <;> rfl

/-- With a turn for every message and one more, the drain returns what the mask lets
through and leaves the queue empty. -/
theorem drain_spec (me : Nat) (mask : List String) {n : Nat} (hn : (h.queued id).length < n) :
    (h.drain me id mask n).1 = (h.queued id).filter (InstanceMap.inboundVisible mask) ∧
      Emptied id h (h.drain me id mask n).2 := by
  induction n generalizing h with
  | zero => exact absurd hn (Nat.not_lt_zero _)
  | succ n ih =>
    unfold drain
    cases hrecv : h.instances.tryRecvInbound id with
    | mk popped m =>
      cases popped with
      | none =>
        obtain ⟨hq, hempty⟩ := recv_none hrecv
        rw [hq]
        exact ⟨rfl, hempty⟩
      | some msg =>
        obtain ⟨hq, hempty⟩ := recv_some (h.pops ++ [(me, id, msg)]) hrecv
        rw [hq, List.length_cons] at hn
        obtain ⟨hevents, hrest⟩ := ih (Nat.lt_of_succ_lt_succ hn)
        refine ⟨?_, hempty _ hrest⟩
        rw [hq, List.filter_cons, ← hevents]

end Host

/-- An observe call fails and changes nothing, or it returns what the mask of its instance
lets through and leaves the queue of that instance empty. -/
theorem McpServer.observeJson_spec (me : Nat) (h : Host) (instanceId : Option String) :
    (∃ err, resolve h.instances instanceId = .error err ∧
      observeJson me h instanceId = (.error err, h)) ∨
    ∃ reply h', observeJson me h instanceId = (.ok reply, h') ∧
      (∃ snap, resolve h.instances instanceId = .ok snap ∧
        reply.instanceId = snap.register.instanceId) ∧
      reply.events = (h.queued reply.instanceId).filter
        (InstanceMap.inboundVisible ((h.instances.readMask reply.instanceId).getD [])) ∧
      Host.Emptied reply.instanceId h h' := by
  unfold observeJson drainObserve
  cases hr : resolve h.instances instanceId with
  | error err => exact .inl ⟨err, rfl, rfl⟩
  | ok snap =>
    obtain ⟨hevents, hempty⟩ := Host.drain_spec me
      ((h.instances.readMask snap.register.instanceId).getD [])
      (Nat.lt_succ_self (h.queued snap.register.instanceId).length)
    exact .inr ⟨_, _, rfl, ⟨snap, rfl, rfl⟩, hevents, hempty⟩

/-! ## The drain and the sections of the call -/

/-- The turns of the drain are what the sections of an observe call compute. -/
theorem drain_runsTo (me : Nat) (mask : List String) {n : Nat} {h : Host} {c : ObserveCall}
    (hpc : c.pc = .drain mask) (hn : (h.queued c.id).length < n) :
    proxy.RunsTo me h (.observe c) (h.drain me c.id mask n).2
      (.observe { c with
        events := c.events ++ (h.drain me c.id mask n).1
        pc := c.afterDrain }) := by
  obtain ⟨spec, pc, id, polling, events, floor, deadline⟩ := c
  obtain rfl : pc = .drain mask := hpc
  induction n generalizing h events with
  | zero => exact absurd hn (Nat.not_lt_zero _)
  | succ n ih =>
    unfold Host.drain
    cases hrecv : h.instances.tryRecvInbound id with
    | mk popped m =>
      have hstep : proxy.step me h (.observe ⟨spec, .drain mask, id, polling, events, floor,
          deadline⟩) .run = some (match popped with
            | some msg => ({ h with instances := m, pops := h.pops ++ [(me, id, msg)] },
                .observe ⟨spec, .drain mask, id, polling,
                  if InstanceMap.inboundVisible mask msg then events ++ [msg] else events,
                  floor, deadline⟩)
            | none => ({ h with instances := m }, .observe ⟨spec,
                (⟨spec, .drain mask, id, polling, events, floor, deadline⟩ :
                  ObserveCall).afterDrain, id, polling, events, floor, deadline⟩)) := by
        simp only [proxy, Task.step, ObserveCall.step, hrecv]
        cases popped <;> rfl
      cases popped with
      | none =>
        refine .head hstep ?_
        rw [List.append_nil]
        exact .refl ..
      | some msg =>
        obtain ⟨hq, -⟩ := Host.recv_some (h.pops ++ [(me, id, msg)]) hrecv
        rw [hq, List.length_cons] at hn
        refine .head hstep ?_
        have hrest := ih (if InstanceMap.inboundVisible mask msg then events ++ [msg] else events)
          (Nat.lt_of_succ_lt_succ hn)
        by_cases hvisible : InstanceMap.inboundVisible mask msg = true
        · rw [if_pos hvisible, List.append_assoc, List.singleton_append] at hrest
          simp only [hvisible, if_true]
          exact hrest
        · rw [if_neg hvisible] at hrest
          simp only [hvisible]
          exact hrest

/-- `observe_json`, from its call to its return. -/
theorem observe_runsTo (me : Nat) (h : Host) (instanceId : Option String) :
    ∃ c : ObserveCall,
      c.pc = .returned ((McpServer.observeJson me h instanceId).1.mapError ToolError.text) ∧
      proxy.RunsTo me h (.observe (.start instanceId none))
        (McpServer.observeJson me h instanceId).2 (.observe c) := by
  have hresolve : ∀ id, h.instances.resolveOrDefault instanceId = h.instances.resolve id →
      ∃ c : ObserveCall,
        c.pc = .returned ((McpServer.observeJson me h instanceId).1.mapError ToolError.text) ∧
        proxy.RunsTo me h (.observe { spec := none, pc := .resolve id })
          (McpServer.observeJson me h instanceId).2 (.observe c) := by
    intro id hid
    unfold McpServer.observeJson McpServer.drainObserve McpServer.resolve
    rw [hid]
    cases hr : h.instances.resolve id with
    | error err =>
      have hfirst : proxy.step me h (.observe { spec := none, pc := .resolve id }) .run =
          some (h, .observe
            { spec := none, pc := .returned (.error (ObserveCall.resolveError err)) }) := by
        simp only [proxy, Task.step, ObserveCall.step, hr, Option.map_some]
      refine ⟨_, ?_, .head hfirst (.refl ..)⟩
      cases err <;> rfl
    | ok snap =>
      have hfirst : proxy.step me h (.observe { spec := none, pc := .resolve id }) .run =
          some (h, .observe { spec := none, id := snap.register.instanceId, pc := .readMask }) := by
        simp only [proxy, Task.step, ObserveCall.step, hr, Option.map_some]
      have hdrain := drain_runsTo me ((h.instances.readMask snap.register.instanceId).getD [])
        (c := { spec := none, id := snap.register.instanceId, pc := .drain _ }) rfl
        (Nat.lt_succ_self (h.queued snap.register.instanceId).length)
      exact ⟨_, rfl, .head hfirst (.head (i := .run) rfl (hdrain.trans (.head (i := .run) rfl
        (.refl ..))))⟩
  cases instanceId with
  | some id => exact hresolve id rfl
  | none =>
    cases hd : h.instances.defaultInstance with
    | some id =>
      have hfirst : proxy.step me h (.observe (.start none none)) .run =
          some (h, .observe { spec := none, pc := .resolve id }) := by
        simp only [proxy, Task.step, ObserveCall.step, ObserveCall.start, Option.elim_none, hd,
          Option.map_some]
      obtain ⟨c, hpc, hrun⟩ := hresolve id (by rw [InstanceMap.resolveOrDefault, hd])
      exact ⟨c, hpc, .head hfirst hrun⟩
    | none =>
      have hfirst : proxy.step me h (.observe (.start none none)) .run =
          some (h, .observe
            { spec := none, pc := .returned (.error (ObserveCall.resolveError .emptyId)) }) := by
        simp only [proxy, Task.step, ObserveCall.step, ObserveCall.start, Option.elim_none, hd,
          Option.map_some]
      unfold McpServer.observeJson McpServer.drainObserve McpServer.resolve
      rw [InstanceMap.resolveOrDefault, hd]
      exact ⟨_, rfl, .head hfirst (.refl ..)⟩

end CsmProxy
