import CsmProxy.Runtime.SendAndWait

/-!
# The sections of waiting calls and of removals

`SendCall.step_section` says once what one section of a `send_and_wait_for` call can do to
the host and to the call, `RemovePc.step_section` the same for `remove_if`. What follows
about these calls is read off from there.
-/

namespace CsmProxy

namespace SendCall

/-- What one section of the call of task `me` does, with the choice that lets it run. -/
inductive Section (me : Nat) (h : Host) (c : SendCall) : Choice → Host → SendCall → Prop
  | connected (pc : c.pc = .get) (found : (h.instances.get c.instanceId).isSome = true) :
    Section me h c .run h { c with pc := .insertWaiter }
  | unknown (pc : c.pc = .get) (missing : (h.instances.get c.instanceId).isSome = false) :
    Section me h c .run h { c with pc := .returned (.error .unknownInstance) }
  | insertWaiter (pc : c.pc = .insertWaiter) :
    Section me h c .run
      (({ h with instances := (h.instances.insertWaiter c.msg.corr c.kind me).2 } : Host).dropSender
        (h.instances.insertWaiter c.msg.corr c.kind me).1)
      { c with pc := .insertInstance }
  | insertInstance (pc : c.pc = .insertInstance) :
    Section me h c .run
      { h with instances := h.instances.insertWaiterInstance c.msg.corr c.instanceId }
      { c with pc := .trySend }
  | queued {instances : InstanceMap} (pc : c.pc = .trySend)
      (sent : h.instances.trySend c.instanceId c.msg = .ok instances) :
    Section me h c .run { h with instances := instances }
      { c with
        pc := .await (h.now + c.timeout)
        session := (h.instances.inner.lookup c.instanceId).map Instance.token }
  | refused {failure : TrySendError} {err : WaitError} (pc : c.pc = .trySend)
      (refusal : h.instances.trySend c.instanceId c.msg = .error failure)
      (same : (failure = .unknownInstance ∧ err = .unknownInstance) ∨
        (failure = .queueFull ∧ err = .queueFull)) :
    Section me h c .run h { c with pc := .forget err }
  | forget {err : WaitError} (pc : c.pc = .forget err) :
    Section me h c .run
      { h with instances := h.instances.removeWaiterInstance c.msg.corr } { c with pc := .take err }
  | take {err : WaitError} (pc : c.pc = .take err) :
    Section me h c .run
      (({ h with instances := (h.instances.removeWaiter c.msg.corr).2 } : Host).dropSender
        (h.instances.removeWaiter c.msg.corr).1)
      { c with pc := .returned (.error err) }
  | answered {deadline : Nat} {via : String} {reply : SimToServer} (pc : c.pc = .await deadline)
      (sent : h.oneshot me = .sent via reply) :
    Section me h c .run h { c with pc := .returned (.ok reply), via := some via }
  | disconnected {deadline : Nat} (pc : c.pc = .await deadline) (dropped : h.oneshot me = .dropped) :
    Section me h c .run h { c with pc := .returned (.error .disconnected) }
  | timedOut {deadline : Nat} (pc : c.pc = .await deadline) (waiting : h.oneshot me = .waiting)
      (late : deadline ≤ h.now) :
    Section me h c .run h { c with pc := .forget .timeout }

theorem step_section {me : Nat} {h h' : Host} {c c' : SendCall} {i : Choice}
    (hs : c.step me h i = some (h', c')) : Section me h c i h' c' := by
  obtain ⟨id, msg, timeout, kind, pc, session, via⟩ := c
  cases pc with
  | get =>
    cases i <;> cases hs
    cases hget : (h.instances.get id).isSome with
    | true => exact .connected rfl hget
    | false => exact .unknown rfl hget
  | insertWaiter => cases i <;> cases hs; exact .insertWaiter rfl
  | insertInstance => cases i <;> cases hs; exact .insertInstance rfl
  | trySend =>
    cases i <;> simp only [step] at hs
    case run =>
      split at hs
      · rename_i instances hsend
        cases hs
        exact .queued rfl hsend
      · rename_i hsend
        cases hs
        exact .refused rfl hsend (Or.inl ⟨rfl, rfl⟩)
      · rename_i hsend
        cases hs
        exact .refused rfl hsend (Or.inr ⟨rfl, rfl⟩)
    all_goals cases hs
  | forget err => cases i <;> cases hs; exact .forget rfl
  | take err => cases i <;> cases hs; exact .take rfl
  | await deadline =>
    cases i <;> simp only [step] at hs
    case run =>
      split at hs
      · rename_i ho
        cases hs
        exact .answered rfl ho
      · rename_i ho
        cases hs
        exact .disconnected rfl ho
      · rename_i ho
        split at hs
        · rename_i hlate
          cases hs
          exact .timedOut rfl ho hlate
        · cases hs
    all_goals cases hs
  | returned result => cases i <;> cases hs

end SendCall

namespace RemovePc

/-- What one section of `remove_if(id, token)` does, with the choice that lets it run. -/
inductive Section (id : String) (token : Nat) (h : Host) :
    RemovePc → Choice → Host → Option RemovePc → Prop
  | entry :
    Section id token h .entry .run { h with instances := h.instances.removeEntry id token }
      (if h.instances.owns id token then some .collect else none)
  | collect : Section id token h .collect .run h (some (.next (h.instances.waitersOf id)))
  | done : Section id token h (.next ∅) .run h none
  | pick {corr : UInt64} {rest : Finset UInt64} (mem : corr ∈ rest) :
    Section id token h (.next rest) (.pick corr)
      { h with instances := h.instances.removeWaiterInstance corr }
      (some (.take corr (rest.erase corr)))
  | take {corr : UInt64} {rest : Finset UInt64} :
    Section id token h (.take corr rest) .run
      (({ h with instances := (h.instances.removeWaiter corr).2 } : Host).dropSender
        (h.instances.removeWaiter corr).1)
      (some (.next rest))

theorem step_section {id : String} {token : Nat} {h h' : Host} {pc : RemovePc} {i : Choice}
    {out : Option RemovePc} (hs : pc.step id token h i = some (h', out)) :
    Section id token h pc i h' out := by
  cases pc with
  | entry => cases i <;> cases hs; exact .entry
  | collect => cases i <;> cases hs; exact .collect
  | next rest =>
    cases i <;> simp only [step] at hs
    case run =>
      split at hs
      · rename_i hempty
        subst hempty
        cases hs
        exact .done
      · cases hs
    case pick corr =>
      split at hs
      · rename_i hmem
        cases hs
        exact .pick hmem
      · cases hs
    all_goals cases hs
  | take corr rest => cases i <;> cases hs; exact .take

end RemovePc

end CsmProxy
