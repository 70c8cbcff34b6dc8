import CsmProxy.Mcp.Tools
import CsmProxy.Runtime.Footprint
import CsmProxy.Runtime.Sequential

/-!
# Tools and sections

The sequential tools are what the sections of the tasks compute when a task runs alone:
`enqueue` and `set_session_view_json` to their return, and `send_and_wait_for` up to the
point where it waits.
-/

namespace CsmProxy

open Foundations

/-- The instance and the corr a tool reports. -/
def ToolReply.target : ToolReply → String × UInt64
  | .queued id corr => (id, corr)
  | .painted _ id corr => (id, corr)
  | .accepted id corr _ _ => (id, corr)
  | .snapshot _ _ id corr => (id, corr)

/-- The result of a tool as its task returns it. -/
def ToolReply.returned (result : Except ToolError ToolReply) : Except String (String × UInt64) :=
  (result.map target).mapError ToolError.text

/-- The sections of `enqueue`, in any task that runs them. -/
theorem EnqueuePc.runsTo {L : Type} {P : Pool Host L Choice} {me : Nat} {ackRequested : Bool}
    {payload : ServerPayload} (task : EnqueuePc ⊕ Except String (String × UInt64) → L)
    (hstep : ∀ h pc, P.step me h (task (.inl pc)) .run =
      some ((EnqueuePc.step ackRequested payload h pc).1,
        task (EnqueuePc.step ackRequested payload h pc).2))
    (instanceId : Option String) (h : Host) :
    P.RunsTo me h (task (.inl (instanceId.elim .default .resolve)))
      { h with instances := (McpServer.enqueue h.instances instanceId ackRequested payload).2 }
      (task (.inr (ToolReply.returned
        (McpServer.enqueue h.instances instanceId ackRequested payload).1))) := by
  have hresolve : ∀ id, h.instances.resolveOrDefault instanceId = h.instances.resolve id →
      P.RunsTo me h (task (.inl (.resolve id)))
        { h with instances := (McpServer.enqueue h.instances instanceId ackRequested payload).2 }
        (task (.inr (ToolReply.returned
          (McpServer.enqueue h.instances instanceId ackRequested payload).1))) := by
    intro id hid
    have hfirst := hstep h (.resolve id)
    unfold McpServer.enqueue McpServer.resolve
    rw [hid]
    simp only [EnqueuePc.step] at hfirst
    cases hr : h.instances.resolve id with
    | error err =>
      rw [hr] at hfirst
      cases err <;> exact .head hfirst (.refl ..)
    | ok snap =>
      rw [hr] at hfirst
      refine .head hfirst (.head (hstep _ (.nextCorr snap.register.instanceId)) ?_)
      have hsend := hstep { h with instances := h.instances.takeCorr.2 }
        (.trySend snap.register.instanceId h.instances.takeCorr.1)
      simp only [EnqueuePc.step] at hsend
      simp only [Except.mapError]
      cases hs : h.instances.takeCorr.2.trySend snap.register.instanceId
          { corr := h.instances.takeCorr.1, ackRequested, payload := some payload } with
      | error err =>
        rw [hs] at hsend
        cases err <;> exact .head hsend (.refl ..)
      | ok sent =>
        rw [hs] at hsend
        exact .head hsend (.refl ..)
  cases instanceId with
  | some id => exact hresolve id rfl
  | none =>
    have hfirst := hstep h .default
    simp only [EnqueuePc.step] at hfirst
    cases hd : h.instances.defaultInstance with
    | some id =>
      rw [hd] at hfirst
      exact .head hfirst (hresolve id (by rw [InstanceMap.resolveOrDefault, hd]))
    | none =>
      rw [hd] at hfirst
      unfold McpServer.enqueue McpServer.resolve InstanceMap.resolveOrDefault
      rw [hd]
      exact .head hfirst (.refl ..)

/-- Every entry is stored under the id of its registration. -/
def InstanceMap.KeyedById (m : InstanceMap) : Prop :=
  ∀ id inst, m.inner.lookup id = some inst → inst.register.instanceId = id

/-- A resolved id is valid and its own. -/
theorem InstanceMap.KeyedById.resolve {m : InstanceMap} (hkey : m.KeyedById) {id : String}
    {snap : InstanceSnapshot} (h : m.resolve id = .ok snap) :
    isValidInstanceId id = true ∧ snap.register.instanceId = id := by
  unfold InstanceMap.resolve get at h
  split at h
  · cases h
  · rename_i hvalid
    cases hid : m.inner.lookup id with
    | none => rw [hid] at h; cases h
    | some inst =>
      rw [hid] at h
      cases h
      exact ⟨by simpa using hvalid, hkey id inst hid⟩

theorem InstanceMap.trySend_ok {m m' : InstanceMap} {id : String} {msg : ServerToSim}
    (h : m.trySend id msg = .ok m') : ∃ inst outbound, m.inner.lookup id = some inst ∧
      m' = { m with inner := m.inner.insert id { inst with outbound := outbound } } := by
  unfold trySend at h
  split at h
  · cases h
  · rename_i inst hid
    split at h
    · cases h
    · cases h
      exact ⟨inst, _, hid, rfl⟩

theorem McpServer.resolve_some (m : InstanceMap) (id : String) :
    resolve m (some id) = (m.resolve id).mapError ToolError.ofResolve := rfl

/-- A queued envelope is behind those of the entry that the id names. -/
theorem McpServer.enqueue_ok {m m' : InstanceMap} (hkey : m.KeyedById) {id : String}
    {ackRequested : Bool} {payload : ServerPayload} {reply : ToolReply}
    (h : enqueue m (some id) ackRequested payload = (.ok reply, m')) :
    isValidInstanceId id = true ∧ (∃ corr, reply = .queued id corr) ∧
      ∃ inst outbound, m.inner.lookup id = some inst ∧
        m'.inner = m.inner.insert id { inst with outbound := outbound } := by
  rw [enqueue, resolve_some] at h
  cases hr : m.resolve id with
  | error err => rw [hr] at h; cases h
  | ok snap =>
    obtain ⟨hvalid, hsnap⟩ := hkey.resolve hr
    rw [hr] at h
    simp only [Except.mapError, hsnap] at h
    split at h
    · cases h
    · rename_i sent hsend
      cases h
      obtain ⟨inst, outbound, hid, rfl⟩ := InstanceMap.trySend_ok hsend
      exact ⟨hvalid, ⟨_, rfl⟩, inst, outbound, hid, rfl⟩

/-- Where the view call is when its `enqueue` is in a section or has returned. -/
def ViewPc.duringEnqueue (id : String) : EnqueuePc ⊕ Except String (String × UInt64) → ViewPc
  | .inl pc => .enqueue id pc
  | .inr (.ok (_, corr)) => .setReadMask id corr
  | .inr (.error err) => .returned (.error err)

/-- `set_session_view_json`, from its call to its return. -/
theorem view_runsTo (me : Nat) {h : Host} (hkey : h.instances.KeyedById)
    (instanceId : Option String) (paths excludeLogComponents : List String) :
    proxy.RunsTo me h (.view (.start instanceId paths excludeLogComponents))
      { h with instances :=
        (McpServer.setSessionView h.instances instanceId paths excludeLogComponents).2 }
      (.view ⟨paths, excludeLogComponents, .returned (ToolReply.returned
        (McpServer.setSessionView h.instances instanceId paths excludeLogComponents).1)⟩) := by
  have hresolve : ∀ id, h.instances.resolveOrDefault instanceId = h.instances.resolve id →
      proxy.RunsTo me h (.view ⟨paths, excludeLogComponents, .resolve id⟩)
        { h with instances :=
          (McpServer.setSessionView h.instances instanceId paths excludeLogComponents).2 }
        (.view ⟨paths, excludeLogComponents, .returned (ToolReply.returned
          (McpServer.setSessionView h.instances instanceId paths excludeLogComponents).1)⟩) := by
    intro id hid
    unfold McpServer.setSessionView McpServer.resolve
    rw [hid]
    cases hr : h.instances.resolve id with
    | error err =>
      have hfirst : proxy.step me h (.view ⟨paths, excludeLogComponents, .resolve id⟩) .run =
          some (h, .view ⟨paths, excludeLogComponents,
            .returned (.error (ObserveCall.resolveError err))⟩) := by
        simp only [proxy, Task.step, ViewCall.step, hr, Option.map_some]
      cases err <;> exact .head hfirst (.refl ..)
    | ok snap =>
      obtain ⟨-, hsnap⟩ := hkey.resolve hr
      have hfirst : proxy.step me h (.view ⟨paths, excludeLogComponents, .resolve id⟩) .run =
          some (h, .view ⟨paths, excludeLogComponents, .enqueue id (.resolve id)⟩) := by
        simp only [proxy, Task.step, ViewCall.step, hr, hsnap, Option.map_some]
      refine .head hfirst ?_
      let task (out : EnqueuePc ⊕ Except String (String × UInt64)) : Task :=
        .view ⟨paths, excludeLogComponents, .duringEnqueue id out⟩
      have hstep : ∀ h pc, proxy.step me h (task (.inl pc)) .run =
          some ((EnqueuePc.step false
              (.setSessionView (wireSessionViewPaths paths) excludeLogComponents) h pc).1,
            task (EnqueuePc.step false
              (.setSessionView (wireSessionViewPaths paths) excludeLogComponents) h pc).2) := by
        intro h pc
        simp only [proxy, Task.step, ViewCall.step, task, ViewPc.duringEnqueue]
        rcases pc.step false _ h with ⟨h', pc' | (err | ⟨_, corr⟩)⟩ <;> rfl
      have hqueue := EnqueuePc.runsTo task hstep (some id) h
      simp only [Except.mapError, hsnap]
      refine hqueue.trans ?_
      cases hq : McpServer.enqueue h.instances (some id) false
          (.setSessionView (wireSessionViewPaths paths) excludeLogComponents) with
      | mk result m' =>
        cases result with
        | error err => exact .refl ..
        | ok reply =>
          obtain ⟨-, ⟨corr, rfl⟩, -⟩ := McpServer.enqueue_ok hkey hq
          exact .head (i := .run) rfl (.head (i := .run) rfl (.refl ..))
  cases instanceId with
  | some id => exact hresolve id rfl
  | none =>
    cases hd : h.instances.defaultInstance with
    | some id =>
      have hfirst : proxy.step me h (.view ⟨paths, excludeLogComponents, .default⟩) .run =
          some (h, .view ⟨paths, excludeLogComponents, .resolve id⟩) := by
        simp only [proxy, Task.step, ViewCall.step, hd, Option.map_some]
      exact .head hfirst (hresolve id (by rw [InstanceMap.resolveOrDefault, hd]))
    | none =>
      have hfirst : proxy.step me h (.view ⟨paths, excludeLogComponents, .default⟩) .run =
          some (h, .view ⟨paths, excludeLogComponents,
            .returned (.error (ObserveCall.resolveError .emptyId))⟩) := by
        simp only [proxy, Task.step, ViewCall.step, hd, Option.map_some]
      unfold McpServer.setSessionView McpServer.resolve InstanceMap.resolveOrDefault
      rw [hd]
      exact .head hfirst (.refl ..)

/-- The error of `send_and_wait_for` when its envelope cannot be queued. -/
def WaitError.ofTrySend : TrySendError → WaitError
  | .unknownInstance => .unknownInstance
  | .queueFull => .queueFull

/-- `send_and_wait_for`, from its call to the point where it waits for the reply, or to its
return when the request cannot be sent. -/
theorem send_runsTo (me : Nat) (h : Host) {c : SendCall} (hpc : c.pc = .get) (wait : Wait) :
    (∃ h' session,
      (h.instances.registerWaiter c.instanceId c.msg.corr c.kind me).trySend c.instanceId c.msg =
        .ok h'.instances ∧
      mapCalls.RunsTo me h (.send c) h'
        (.send { c with pc := .await (h.now + c.timeout), session := session })) ∨
    ∃ h' err,
      h.instances.sendAndWaitFor c.instanceId c.msg c.timeout c.kind me wait =
        (.error err, h'.instances) ∧
      mapCalls.RunsTo me h (.send c) h' (.send { c with pc := .returned (.error err) }) := by
  obtain ⟨id, msg, timeout, kind, pc, session, via⟩ := c
  obtain rfl : pc = .get := hpc
  have hget : mapCalls.step me h (.send ⟨id, msg, timeout, kind, .get, session, via⟩) .run =
      some (h, .send ⟨id, msg, timeout, kind,
        if (h.instances.get id).isSome then .insertWaiter else .returned (.error .unknownInstance),
        session, via⟩) := rfl
  cases hconn : h.instances.get id with
  | none =>
    rw [hconn] at hget
    refine Or.inr ⟨h, .unknownInstance, ?_, .head hget (.refl ..)⟩
    simp only [InstanceMap.sendAndWaitFor, hconn]
    rfl
  | some snap =>
    rw [hconn] at hget
    -- the two tables of waiters; the sender of an older call may be dropped
    obtain ⟨o, ho⟩ := Host.dropSender_footprint
      { h with instances := (h.instances.insertWaiter msg.corr kind me).2 }
      (h.instances.insertWaiter msg.corr kind me).1
    have hinsert : mapCalls.step me h (.send ⟨id, msg, timeout, kind, .insertWaiter, session, via⟩)
        .run = some ({ h with
          instances := (h.instances.insertWaiter msg.corr kind me).2, oneshot := o },
          .send ⟨id, msg, timeout, kind, .insertInstance, session, via⟩) :=
      congrArg (fun h => some (h, MapCall.send ⟨id, msg, timeout, kind, .insertInstance, session,
        via⟩)) ho
    have hregistered : mapCalls.RunsTo me h (.send ⟨id, msg, timeout, kind, .get, session, via⟩)
        { h with instances := h.instances.registerWaiter id msg.corr kind me, oneshot := o }
        (.send ⟨id, msg, timeout, kind, .trySend, session, via⟩) :=
      .head hget (.head hinsert (.head (i := .run) rfl (.refl ..)))
    have hforget : ∀ err, ∃ h' : Host,
        h'.instances = (h.instances.registerWaiter id msg.corr kind me).takeWaiter msg.corr ∧
        mapCalls.RunsTo me
          { h with instances := h.instances.registerWaiter id msg.corr kind me, oneshot := o }
          (.send ⟨id, msg, timeout, kind, .forget err, session, via⟩) h'
          (.send ⟨id, msg, timeout, kind, .returned (.error err), session, via⟩) := fun err =>
      ⟨_, Host.dropSender_instances .., .head (i := .run) rfl (.head (i := .run) rfl (.refl ..))⟩
    cases hout : (h.instances.registerWaiter id msg.corr kind me).trySend id msg with
    | ok sent =>
      have hsend : mapCalls.step me
          { h with instances := h.instances.registerWaiter id msg.corr kind me, oneshot := o }
          (.send ⟨id, msg, timeout, kind, .trySend, session, via⟩) .run =
          some ({ h with instances := sent, oneshot := o }, .send ⟨id, msg, timeout, kind,
            .await (h.now + timeout), ((h.instances.registerWaiter id msg.corr kind
              me).inner.lookup id).map Instance.token, via⟩) := by
        simp only [mapCalls, MapCall.step, SendCall.step, hout, Option.map_some]
      exact Or.inl ⟨{ h with instances := sent, oneshot := o }, _, rfl,
        hregistered.trans (.head hsend (.refl ..))⟩
    | error err =>
      obtain ⟨h', hi, hrun⟩ := hforget (.ofTrySend err)
      have hsend : mapCalls.step me
          { h with instances := h.instances.registerWaiter id msg.corr kind me, oneshot := o }
          (.send ⟨id, msg, timeout, kind, .trySend, session, via⟩) .run =
          some ({ h with instances := h.instances.registerWaiter id msg.corr kind me, oneshot := o },
            .send ⟨id, msg, timeout, kind, .forget (.ofTrySend err), session, via⟩) := by
        cases err <;> simp only [mapCalls, MapCall.step, SendCall.step, hout, Option.map_some,
          WaitError.ofTrySend]
      refine Or.inr ⟨h', .ofTrySend err, ?_, hregistered.trans (.head hsend hrun)⟩
      simp only [InstanceMap.sendAndWaitFor, hconn, hout, hi]
      cases err <;> rfl

end CsmProxy
