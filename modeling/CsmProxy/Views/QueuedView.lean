import CsmProxy.Mcp.NoTrace
import CsmProxy.Mcp.ObserveOnce
import CsmProxy.Views.WireFilter

/-!
# A new view and what is already queued

The mask of a session view is applied twice, when a message is queued and again when
`observe` drains the queue. The exclude list is applied only when a message is queued. So
the log lines that wait in the queue when a view is set come out under that view even when
it excludes them.

* `ViewOp`: the operations, each with nothing in between.
* `ViewOp.run_entry`: what one of them makes of an entry.
* `viewHonoured_iff`: a view is honoured exactly when no such line waits.
-/

namespace CsmProxy

open Foundations

/-! ## The operations -/

inductive ViewOp where
  | connect (register : Register) (inboundCap : UInt64) (outbound : Outbound)
  | removeIf (id : String) (token : Nat)
  | heartbeat (id : String) (token : Nat) (heartbeat : Heartbeat)
  | push (id : String) (msg : SimToServer)
  | setView (instanceId : Option String) (paths excludeLogComponents : List String)
  | observe (me : Nat) (instanceId : Option String)

namespace ViewOp

/-- The host after the operation. -/
def run (h : Host) : ViewOp → Host
  | .connect register cap outbound =>
    { h with instances := (h.instances.insert register cap outbound).2 }
  | .removeIf id token => h.removeIf id token
  | .heartbeat id token hb => { h with instances := h.instances.setHeartbeat id token hb }
  | .push id msg => h.pushInbound id msg
  | .setView instanceId paths exclude =>
    { h with instances := (McpServer.setSessionView h.instances instanceId paths exclude).2 }
  | .observe me instanceId => (McpServer.observeJson me h instanceId).2

/-- The operation is a new session for `id` or sets another view on it. -/
def replacesView (h : Host) (id : String) : ViewOp → Bool
  | .connect register _ _ => register.instanceId = id
  | .setView instanceId paths exclude =>
    match (McpServer.setSessionView h.instances instanceId paths exclude).1 with
    | .ok reply => reply.target.1 = id
    | .error _ => false
  | _ => false

def runAll (h : Host) (ops : List ViewOp) : Host := ops.foldl run h

/-- No operation of the run replaces the view of `id`. -/
def KeepsView (id : String) (h : Host) : List ViewOp → Prop
  | [] => True
  | op :: ops => op.replacesView h id = false ∧ KeepsView id (op.run h) ops

end ViewOp

/-- From `h` on, and as long as nothing replaces the view of `id`, every event that
`observe` returns for `id` is named by `paths` and no log line of an excluded component. -/
def ViewHonoured (id : String) (paths excludeLogComponents : List String) (h : Host) : Prop :=
  ∀ ops, ViewOp.KeepsView id h ops → ∀ me instanceId reply,
    (McpServer.observeJson me (ViewOp.runAll h ops) instanceId).1 = .ok reply →
    reply.instanceId = id → ∀ event ∈ reply.events,
      InstanceMap.inboundVisible paths event = true ∧
        InstanceMap.logExcluded excludeLogComponents event = false

/-! ## What an operation makes of an entry -/

/-- `inst'` is the same session under the same view, and what is new in its queue passed
that view. -/
structure Instance.Admits (inst inst' : Instance) : Prop where
  register : inst'.register = inst.register
  readMask : inst'.readMask = inst.readMask
  excludeLogComponents : inst'.excludeLogComponents = inst.excludeLogComponents
  inbound : ∀ msg ∈ inst'.inbound.items, msg ∈ inst.inbound.items ∨
    InstanceMap.logExcluded inst.excludeLogComponents msg = false

namespace Instance

theorem Admits.refl (inst : Instance) : inst.Admits inst := ⟨rfl, rfl, rfl, fun _ => .inl⟩

theorem admits_enqueueInbound (inst : Instance) (msg : SimToServer) :
    inst.Admits (inst.enqueueInbound msg) := by
  unfold enqueueInbound
  split
  · exact .refl inst
  · split
    · exact .refl inst
    · rename_i hlog
      refine ⟨rfl, rfl, rfl, fun msg' hmsg' => ?_⟩
      rcases List.mem_append.mp ((inst.inbound.push_sublist msg).subset hmsg') with hold | hnew
      · exact .inl hold
      · obtain rfl := List.mem_singleton.mp hnew
        exact .inr (Bool.eq_false_iff.mpr hlog)

theorem admits_cleared (inst : Instance) : inst.Admits inst.cleared :=
  ⟨rfl, rfl, rfl, fun _ hmsg => absurd hmsg List.not_mem_nil⟩

end Instance

/-- Entries after an operation that connects no session come from entries before it. -/
def InstanceMap.AdmitsAll (m m' : InstanceMap) : Prop :=
  ∀ id inst', m'.inner.lookup id = some inst' → ∃ inst, m.inner.lookup id = some inst ∧ inst.Admits inst'

theorem InstanceMap.AdmitsAll.of_modify {m : InstanceMap} {id : String} {f : Instance → Instance}
    (hf : ∀ inst : Instance, inst.Admits (f inst)) : m.AdmitsAll (m.modify id f) := by
  intro id' inst' hid'
  obtain ⟨inst, hid, rfl | ⟨-, rfl⟩⟩ := HashMap.of_lookup_modify hid'
  · exact ⟨inst', hid, .refl inst'⟩
  · exact ⟨inst, hid, hf inst⟩

theorem Host.pushInbound_admitsAll (h : Host) (id : String) (msg : SimToServer) :
    h.instances.AdmitsAll (h.pushInbound id msg).instances := by
  have hinner := h.completeWaiter_inner id msg
  intro id' inst' hid'
  obtain ⟨inst, hid, hadmits⟩ := InstanceMap.AdmitsAll.of_modify
    (m := (h.completeWaiter id msg).instances) (fun inst => inst.admits_enqueueInbound msg)
    id' inst' hid'
  exact ⟨inst, hinner ▸ hid, hadmits⟩

theorem Host.failWaiters_inner (h : Host) (id : String) :
    (h.failWaiters id).instances.inner = h.instances.inner := by
  unfold failWaiters
  generalize (h.instances.waitersOf id).sort (· ≤ ·) = corrs
  induction corrs generalizing h with
  | nil => rfl
  | cons corr corrs ih =>
    rw [List.foldl_cons, ih, takeWaiter, dropSender_instances]
    rfl

theorem Host.removeIf_admitsAll (h : Host) (id : String) (token : Nat) :
    h.instances.AdmitsAll (h.removeIf id token).instances := by
  have hinner : (h.removeIf id token).instances.inner =
      (h.instances.removeEntry id token).inner := by
    unfold removeIf
    split
    · exact failWaiters_inner _ id
    · rfl
  intro id' inst' hid'
  rw [hinner] at hid'
  exact ⟨inst', (InstanceMap.lookup_removeEntry hid').1, .refl inst'⟩

theorem InstanceMap.setHeartbeat_admitsAll (m : InstanceMap) (id : String) (token : Nat)
    (heartbeat : Heartbeat) : m.AdmitsAll (m.setHeartbeat id token heartbeat) := by
  refine .of_modify fun inst => ?_
  split
  · exact ⟨rfl, rfl, rfl, fun _ => .inl⟩
  · exact .refl inst

theorem Host.Emptied.admitsAll {id : String} {h h' : Host} (he : Host.Emptied id h h') :
    h.instances.AdmitsAll h'.instances := by
  intro id' inst' hid'
  rw [he.lookup] at hid'
  split at hid'
  · rename_i heq
    obtain ⟨inst, hid, rfl⟩ := Option.map_eq_some_iff.mp hid'
    exact ⟨inst, heq ▸ hid, inst.admits_cleared⟩
  · exact ⟨inst', hid', .refl inst'⟩

theorem McpServer.observeJson_admitsAll (me : Nat) (h : Host) (instanceId : Option String) :
    h.instances.AdmitsAll (McpServer.observeJson me h instanceId).2.instances := by
  rcases observeJson_spec me h instanceId with ⟨err, -, herr⟩ | ⟨reply, h', hok, -, -, hempty⟩
  · rw [herr]
    exact fun id inst hid => ⟨inst, hid, .refl inst⟩
  · rw [hok]
    exact hempty.admitsAll

/-! ## Setting a view -/

/-- `m'` is `m` with another view, and a longer outbound queue, at `id`. -/
structure InstanceMap.ViewSet (id : String) (paths excludeLogComponents : List String)
    (m m' : InstanceMap) : Prop where
  valid : isValidInstanceId id = true
  target : ∃ inst outbound, m.inner.lookup id = some inst ∧ m'.inner.lookup id = some { inst with
    outbound := outbound, readMask := paths, excludeLogComponents := excludeLogComponents }
  other : ∀ id', id' ≠ id → m'.inner.lookup id' = m.inner.lookup id'

namespace McpServer

theorem setSessionView_ok {m m' : InstanceMap} (hkey : m.KeyedById) {instanceId : Option String}
    {paths exclude : List String} {reply : ToolReply}
    (h : setSessionView m instanceId paths exclude = (.ok reply, m')) :
    m.ViewSet reply.target.1 paths exclude m' := by
  unfold setSessionView at h
  cases hr : resolve m instanceId with
  | error err => rw [hr] at h; cases h
  | ok snap =>
    rw [hr] at h
    simp only at h
    split at h
    · cases h
    · rename_i queued m₁ hq
      cases h
      obtain ⟨hvalid, ⟨corr, rfl⟩, inst, outbound, hid, hm⟩ := enqueue_ok hkey hq
      have hlookup : ∀ id', ((m₁.setReadMask snap.register.instanceId paths).setExcludeLogComponents
          snap.register.instanceId exclude).inner.lookup id' =
          if id' = snap.register.instanceId then some { inst with
            outbound := outbound, readMask := paths, excludeLogComponents := exclude }
          else m.inner.lookup id' := by
        intro id'
        rw [InstanceMap.setExcludeLogComponents, InstanceMap.lookup_modify, InstanceMap.setReadMask,
          InstanceMap.lookup_modify, hm, HashMap.lookup_insert_ite]
        split <;> rfl
      exact ⟨hvalid, ⟨inst, outbound, hid, (hlookup _).trans (if_pos rfl)⟩,
        fun id' hne => (hlookup id').trans (if_neg hne)⟩

end McpServer

/-! ## Runs -/

theorem InstanceMap.AdmitsAll.keyed {m m' : InstanceMap} (h : m.AdmitsAll m')
    (hkey : m.KeyedById) : m'.KeyedById := by
  intro id inst' hid'
  obtain ⟨inst, hid, hadmits⟩ := h id inst' hid'
  rw [hadmits.register]
  exact hkey id inst hid

theorem InstanceMap.ViewSet.keyed {m m' : InstanceMap} {id : String} {paths exclude : List String}
    (h : m.ViewSet id paths exclude m') (hkey : m.KeyedById) : m'.KeyedById := by
  obtain ⟨inst, outbound, hid, hid'⟩ := h.target
  intro id' inst' hinst'
  by_cases heq : id' = id
  · subst heq
    rw [hid'] at hinst'
    cases hinst'
    exact hkey id' inst hid
  · exact hkey id' inst' (h.other id' heq ▸ hinst')

namespace ViewOp

variable {h : Host} {id : String} {paths exclude : List String}

/-- The entry for `id` after an operation that leaves its view alone. -/
theorem run_entry (hkey : h.instances.KeyedById) {op : ViewOp}
    (hop : op.replacesView h id = false) {inst' : Instance}
    (hid' : (op.run h).instances.inner.lookup id = some inst') :
    ∃ inst, h.instances.inner.lookup id = some inst ∧ inst.Admits inst' := by
  cases op with
  | connect register cap outbound =>
    have hne : id ≠ register.instanceId := fun he => of_decide_eq_false hop he.symm
    change (h.instances.inner.insert register.instanceId _).lookup id = some inst' at hid'
    rw [HashMap.lookup_insert_ite, if_neg hne] at hid'
    exact ⟨inst', hid', .refl inst'⟩
  | removeIf id' token => exact h.removeIf_admitsAll id' token id inst' hid'
  | heartbeat id' token hb => exact h.instances.setHeartbeat_admitsAll id' token hb id inst' hid'
  | push id' msg => exact h.pushInbound_admitsAll id' msg id inst' hid'
  | observe me instanceId => exact McpServer.observeJson_admitsAll me h instanceId id inst' hid'
  | setView instanceId paths exclude =>
    simp only [run] at hid'
    simp only [replacesView] at hop
    cases hset : McpServer.setSessionView h.instances instanceId paths exclude with
    | mk result m =>
      rw [hset] at hid' hop
      cases result with
      | error err =>
        have hinner : m.inner = h.instances.inner := (McpServer.setSessionView_error hset).inner
        exact ⟨inst', hinner ▸ hid', .refl inst'⟩
      | ok reply =>
        have hne : id ≠ reply.target.1 := fun he => of_decide_eq_false hop he.symm
        have hview := McpServer.setSessionView_ok hkey hset
        exact ⟨inst', hview.other id hne ▸ hid', .refl inst'⟩

theorem run_keyed (hkey : h.instances.KeyedById) (op : ViewOp) :
    (op.run h).instances.KeyedById := by
  cases op with
  | connect register cap outbound =>
    intro id inst hid
    change (h.instances.inner.insert register.instanceId _).lookup id = some inst at hid
    rw [HashMap.lookup_insert_ite] at hid
    split at hid
    · rename_i he
      cases hid
      exact he.symm
    · exact hkey id inst hid
  | removeIf id token => exact (h.removeIf_admitsAll id token).keyed hkey
  | heartbeat id token hb => exact (h.instances.setHeartbeat_admitsAll id token hb).keyed hkey
  | push id msg => exact (h.pushInbound_admitsAll id msg).keyed hkey
  | observe me instanceId => exact (McpServer.observeJson_admitsAll me h instanceId).keyed hkey
  | setView instanceId paths exclude =>
    simp only [run]
    cases hset : McpServer.setSessionView h.instances instanceId paths exclude with
    | mk result m =>
      cases result with
      | error err =>
        have hinner : m.inner = h.instances.inner := (McpServer.setSessionView_error hset).inner
        exact fun id inst hid => hkey id inst (hinner ▸ hid)
      | ok reply => exact (McpServer.setSessionView_ok hkey hset).keyed hkey

theorem runAll_keyed (hkey : h.instances.KeyedById) (ops : List ViewOp) :
    (runAll h ops).instances.KeyedById := by
  induction ops generalizing h with
  | nil => exact hkey
  | cons op ops ih => exact ih (run_keyed hkey op)

/-- The view of `id`, and a queue that `observe` can show under it. -/
def Shows (id : String) (paths exclude : List String) (h : Host) : Prop :=
  ∀ inst, h.instances.inner.lookup id = some inst →
    inst.readMask = paths ∧ inst.excludeLogComponents = exclude ∧
      ∀ msg ∈ inst.inbound.items, InstanceMap.inboundVisible paths msg = true →
        InstanceMap.logExcluded exclude msg = false

theorem run_shows (hkey : h.instances.KeyedById) {op : ViewOp}
    (hop : op.replacesView h id = false) (hs : Shows id paths exclude h) :
    Shows id paths exclude (op.run h) := by
  intro inst' hid'
  obtain ⟨inst, hid, hadmits⟩ := run_entry hkey hop hid'
  obtain ⟨hmask, hexclude, hqueue⟩ := hs inst hid
  refine ⟨hadmits.readMask.trans hmask, hadmits.excludeLogComponents.trans hexclude, ?_⟩
  intro msg hmsg hvisible
  rcases hadmits.inbound msg hmsg with hold | hnew
  · exact hqueue msg hold hvisible
  · exact hexclude ▸ hnew

theorem runAll_shows (hkey : h.instances.KeyedById) {ops : List ViewOp}
    (hops : KeepsView id h ops) (hs : Shows id paths exclude h) :
    Shows id paths exclude (runAll h ops) := by
  induction ops generalizing h with
  | nil => exact hs
  | cons op ops ih => exact ih (run_keyed hkey op) hops.2 (run_shows hkey hops.1 hs)

end ViewOp

/-- What `observe` returns under a view that its queue can be shown under. -/
theorem ViewOp.Shows.observe {h h' : Host} {id : String} {paths exclude : List String}
    (hs : ViewOp.Shows id paths exclude h) {me : Nat} {instanceId : Option String}
    {reply : ObserveReply} (hok : McpServer.observeJson me h instanceId = (.ok reply, h'))
    (hid : reply.instanceId = id) : ∀ event ∈ reply.events,
      InstanceMap.inboundVisible paths event = true ∧
        InstanceMap.logExcluded exclude event = false := by
  rcases McpServer.observeJson_spec me h instanceId with ⟨err, -, herr⟩ | ⟨reply', h₁, hok', -, hevents, -⟩
  · rw [herr] at hok
    cases hok
  · rw [hok'] at hok
    cases hok
    subst hid
    intro event hevent
    rw [hevents] at hevent
    obtain ⟨hqueued, hvisible⟩ := List.mem_filter.mp hevent
    cases hlookup : h.instances.inner.lookup reply.instanceId with
    | none =>
      rw [Host.queued, hlookup] at hqueued
      exact absurd hqueued List.not_mem_nil
    | some inst =>
      obtain ⟨hmask, -, hqueue⟩ := hs inst hlookup
      rw [Host.queued_eq hlookup] at hqueued
      rw [InstanceMap.readMask, hlookup, Option.map_some, Option.getD_some, hmask] at hvisible
      exact ⟨hvisible, hqueue event hqueued hvisible⟩

/-! ## When a view is honoured -/

theorem McpServer.resolve_connected {m : InstanceMap} {id : String} {inst : Instance}
    (hvalid : isValidInstanceId id = true) (hid : m.inner.lookup id = some inst) :
    resolve m (some id) = .ok ⟨inst.token, inst.register, inst.lastHeartbeat⟩ := by
  have hget : m.get id = some ⟨inst.token, inst.register, inst.lastHeartbeat⟩ := by
    rw [InstanceMap.get, hid, Option.map_some]
  rw [resolve_some, InstanceMap.resolve, hvalid, hget]
  rfl

/-- An observe call right after the view is set shows what the mask lets through. -/
theorem ViewHonoured.queued {h : Host} {id : String} {paths exclude : List String}
    (hkey : h.instances.KeyedById) (hvalid : isValidInstanceId id = true) {inst : Instance}
    (hid : h.instances.inner.lookup id = some inst) (hmask : inst.readMask = paths)
    (hview : ViewHonoured id paths exclude h) {msg : SimToServer}
    (hmsg : msg ∈ h.queued id) (hvisible : InstanceMap.inboundVisible paths msg = true) :
    InstanceMap.logExcluded exclude msg = false := by
  have hresolve := McpServer.resolve_connected hvalid hid
  rcases McpServer.observeJson_spec 0 h (some id) with
    ⟨err, herr, -⟩ | ⟨reply, h', hok, ⟨snap, hsnap, hreply⟩, hevents, -⟩
  · rw [hresolve] at herr
    cases herr
  · rw [hresolve] at hsnap
    cases hsnap
    have hid' : reply.instanceId = id := hreply.trans (hkey id inst hid)
    have hshown : msg ∈ reply.events := by
      rw [hevents, hid', InstanceMap.readMask, hid, Option.map_some, Option.getD_some, hmask]
      exact List.mem_filter.mpr ⟨hmsg, hvisible⟩
    exact (hview [] trivial 0 (some id) reply (congrArg Prod.fst hok) hid' msg hshown).2

/-- The process before any session. -/
def freshHost (default : Option String) : Host :=
  { instances := InstanceMap.new.setDefaultInstance default }

theorem freshHost_keyed (default : Option String) : (freshHost default).instances.KeyedById := by
  intro id inst hid
  rw [show (freshHost default).instances.inner.lookup id = none from HashMap.lookup_empty id] at hid
  cases hid

/-- **Observing under the current view.** In every run, when `set_session_view` has
returned: every later `observe` of the session honours the whole view if and only if no
message that waits in its queue at that moment is a log line of an excluded component
that the mask lets through. -/
theorem viewHonoured_iff {default : Option String} {ops : List ViewOp} {h : Host}
    (hrun : ViewOp.runAll (freshHost default) ops = h) {instanceId : Option String}
    {paths exclude : List String} {reply : ToolReply} {m : InstanceMap}
    (hset : McpServer.setSessionView h.instances instanceId paths exclude = (.ok reply, m)) :
    ViewHonoured reply.target.1 paths exclude { h with instances := m } ↔
      ∀ msg ∈ h.queued reply.target.1, InstanceMap.inboundVisible paths msg = true →
        InstanceMap.logExcluded exclude msg = false := by
  have hkey : h.instances.KeyedById := hrun ▸ ViewOp.runAll_keyed (freshHost_keyed default) ops
  have hview := McpServer.setSessionView_ok hkey hset
  have hkey' : m.KeyedById := hview.keyed hkey
  obtain ⟨inst, outbound, hid, hid'⟩ := hview.target
  have hqueued : ({ h with instances := m } : Host).queued reply.target.1 =
      h.queued reply.target.1 := by
    rw [Host.queued_eq hid']
    exact (Host.queued_eq hid).symm
  constructor
  · intro hhonoured msg hmsg hvisible
    exact hhonoured.queued hkey' hview.valid hid' rfl (hqueued ▸ hmsg) hvisible
  · intro hqueue ops hops me instanceId' reply' hok hreply'
    have hshows : ViewOp.Shows reply.target.1 paths exclude { h with instances := m } := by
      intro inst' hinst'
      obtain rfl := Option.some.inj (hid'.symm.trans hinst')
      exact ⟨rfl, rfl, fun msg hmsg => hqueue msg (Host.queued_eq hid ▸ hmsg)⟩
    exact (ViewOp.runAll_shows hkey' hops hshows).observe (Prod.ext hok rfl) hreply'

/-- One line of `MEM` waits in the queue of `a`. -/
def memQueued : Host :=
  ViewOp.runAll (freshHost none) [.connect { instanceId := "a" } 4 (.new 4),
    .push "a" { payload := some (.log { component := "MEM" }) }]

theorem queued_memQueued :
    memQueued.queued "a" = [{ payload := some (.log { component := "MEM" }) }] := by decide

theorem setSessionView_memQueued (exclude : List String) :
    ∃ m, McpServer.setSessionView memQueued.instances (some "a") [] exclude =
      (.ok (.queued "a" 1), m) := ⟨_, rfl⟩

/-- A view that leaves out another component is honoured. -/
theorem viewHonoured_sct :
    ∃ m, McpServer.setSessionView memQueued.instances (some "a") [] ["SCT"] =
        (.ok (.queued "a" 1), m) ∧
      ViewHonoured "a" [] ["SCT"] { memQueued with instances := m } := by
  obtain ⟨m, hset⟩ := setSessionView_memQueued ["SCT"]
  refine ⟨m, hset, (viewHonoured_iff (h := memQueued) rfl hset).mpr ?_⟩
  rw [show (ToolReply.queued "a" 1).target.1 = "a" from rfl, queued_memQueued]
  decide

/-- A view that leaves out `MEM` still shows the line that waits. -/
theorem not_viewHonoured_mem :
    ∃ m, McpServer.setSessionView memQueued.instances (some "a") [] ["MEM"] =
        (.ok (.queued "a" 1), m) ∧
      ¬ ViewHonoured "a" [] ["MEM"] { memQueued with instances := m } := by
  obtain ⟨m, hset⟩ := setSessionView_memQueued ["MEM"]
  refine ⟨m, hset, fun hview => ?_⟩
  have hkey : memQueued.instances.KeyedById := ViewOp.runAll_keyed (freshHost_keyed none) _
  have hset' : memQueued.instances.ViewSet "a" [] ["MEM"] m :=
    McpServer.setSessionView_ok hkey hset
  obtain ⟨inst, outbound, hid, hid'⟩ := hset'.target
  have hqueued : ({ payload := some (.log { component := "MEM" }) } : SimToServer) ∈
      ({ memQueued with instances := m } : Host).queued "a" := by
    rw [Host.queued_eq hid']
    change _ ∈ inst.inbound.items
    rw [← Host.queued_eq hid]
    exact queued_memQueued ▸ List.mem_singleton_self _
  have hexcluded : InstanceMap.logExcluded ["MEM"] _ = false :=
    ViewHonoured.queued (h := { memQueued with instances := m }) (hset'.keyed hkey) hset'.valid hid'
      rfl hview hqueued rfl
  exact absurd hexcluded (by decide)

end CsmProxy
