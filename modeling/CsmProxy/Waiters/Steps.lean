import CsmProxy.Runtime.MapCalls
import CsmProxy.Waiters.Sections

/-!
# What a call does to the waiters

The inversion lemmas for the calls of the instance map. A `send_and_wait_for` call
keeps its arguments (`SendCall.step_args`); a call stays the same call
(`fire_send`, `fire_push`); and `MapUpdate`s do not concern the waiter tables.
-/

namespace CsmProxy

open Foundations

theorem SendCall.step_args {me : Nat} {h h' : Host} {c c' : SendCall} {i : Choice}
    (hs : c.step me h i = some (h', c')) :
    c'.instanceId = c.instanceId ∧ c'.msg = c.msg ∧ c'.kind = c.kind := by
  cases step_section hs <;> exact ⟨rfl, rfl, rfl⟩

/-- Which of the three tables of waiters a section writes. -/
structure SameWaiters (h h' : Host) : Prop where
  waiters : h'.instances.waiters = h.instances.waiters
  waiterInstance : h'.instances.waiterInstance = h.instances.waiterInstance
  oneshot : h'.oneshot = h.oneshot

/-- The token that owns each id. -/
def InstanceMap.tokenOf (m : InstanceMap) (id : String) : Option Nat :=
  (m.inner.lookup id).map Instance.token

namespace InstanceMap

theorem trySend_frame {m m' : InstanceMap} {id : String} {msg : ServerToSim}
    (h : m.trySend id msg = .ok m') :
    m'.waiters = m.waiters ∧ m'.waiterInstance = m.waiterInstance ∧ m'.tokenOf = m.tokenOf ∧
      (m.tokenOf id).isSome := by
  unfold trySend at h
  split at h
  · cases h
  · rename_i inst hid
    split at h
    · cases h
    · obtain rfl := Except.ok.inj h
      refine ⟨rfl, rfl, funext fun id' => ?_, ?_⟩
      · change Option.map _ (Finmap.lookup id' (m.inner.insert id _)) = _
        rw [HashMap.lookup_insert_ite, tokenOf]
        split
        · rename_i heq
          rw [heq, hid]
          rfl
        · rfl
      · rw [tokenOf, hid]
        rfl

theorem tokenOf_modify {m : InstanceMap} {id : String} {f : Instance → Instance}
    (hf : ∀ inst : Instance, (f inst).token = inst.token) : (m.modify id f).tokenOf = m.tokenOf := by
  funext id'
  rw [tokenOf, tokenOf, lookup_modify]
  split
  · rw [Option.map_map]
    exact congrArg (Option.map · _) (funext hf)
  · rfl

theorem tokenOf_enqueueInbound (m : InstanceMap) (id : String) (msg : SimToServer) :
    (m.enqueueInbound id msg).tokenOf = m.tokenOf := by
  refine tokenOf_modify fun inst => ?_
  split
  · rfl
  · split <;> rfl

theorem tokenOf_insertInstance (m : InstanceMap) (token : Nat) (register : Register)
    (cap : UInt64) (outbound : Outbound) (id : String) :
    (m.insertInstance token register cap outbound).tokenOf id =
      if id = register.instanceId then some token else m.tokenOf id := by
  change Option.map _ (Finmap.lookup id (m.inner.insert _ _)) = _
  rw [HashMap.lookup_insert_ite]
  split <;> rfl

theorem removeEntry_frame (m : InstanceMap) (id : String) (token : Nat) :
    (m.removeEntry id token).waiters = m.waiters ∧
      (m.removeEntry id token).waiterInstance = m.waiterInstance := by
  unfold removeEntry
  split <;> exact ⟨rfl, rfl⟩

theorem tokenOf_removeEntry (m : InstanceMap) (id : String) (token : Nat) (id' : String)
    (h : id' ≠ id) : (m.removeEntry id token).tokenOf id' = m.tokenOf id' := by
  unfold removeEntry
  split
  · change Option.map _ (Finmap.lookup id' (m.inner.erase id)) = _
    rw [HashMap.lookup_erase_ite, if_neg h]
    rfl
  · rfl

end InstanceMap

/-- The methods that do not concern the waiters. -/
theorem MapUpdate.apply_frame (m : InstanceMap) (u : MapUpdate) :
    (u.apply m).waiters = m.waiters ∧ (u.apply m).waiterInstance = m.waiterInstance ∧
      (u.apply m).tokenOf = m.tokenOf := by
  cases u with
  | setHeartbeat id token heartbeat =>
    refine ⟨rfl, rfl, InstanceMap.tokenOf_modify fun inst => ?_⟩
    split <;> rfl
  | setReadMask id paths => exact ⟨rfl, rfl, InstanceMap.tokenOf_modify fun _ => rfl⟩
  | setExcludeLogComponents id components =>
    exact ⟨rfl, rfl, InstanceMap.tokenOf_modify fun _ => rfl⟩
  | tryRecvInbound id =>
    simp only [apply, InstanceMap.tryRecvInbound]
    cases hid : m.inner.lookup id with
    | none => exact ⟨rfl, rfl, rfl⟩
    | some inst =>
      refine ⟨rfl, rfl, funext fun id' => ?_⟩
      change Option.map _ (Finmap.lookup id' (m.inner.insert id _)) = _
      rw [HashMap.lookup_insert_ite, InstanceMap.tokenOf]
      split
      · rename_i heq
        rw [heq, hid]
        rfl
      · rfl
  | trySend id msg =>
    simp only [apply]
    split
    · rename_i m' hs
      obtain ⟨hw, hi, ht, -⟩ := InstanceMap.trySend_frame hs
      exact ⟨hw, hi, ht⟩
    · exact ⟨rfl, rfl, rfl⟩
  | nextCorr => exact ⟨rfl, rfl, rfl⟩
  | setDefaultInstance id => exact ⟨rfl, rfl, rfl⟩

theorem environmentStep_frame {h h' : Host} {i : Choice} (hs : environmentStep h i = some h') :
    SameWaiters h h' ∧ h'.instances.tokenOf = h.instances.tokenOf := by
  cases i with
  | tick ns => cases hs; exact ⟨⟨rfl, rfl, rfl⟩, rfl⟩
  | exited child => cases hs; exact ⟨⟨rfl, rfl, rfl⟩, rfl⟩
  | drain token => cases hs; exact ⟨⟨rfl, rfl, rfl⟩, rfl⟩
  | recv id | hangUp id =>
    cases hs
    exact ⟨⟨rfl, rfl, rfl⟩, InstanceMap.tokenOf_modify fun _ => rfl⟩
  | _ => cases hs

/-! ## Calls stay calls -/

theorem MapCall.step_send {me : Nat} {h h' : Host} {call : SendCall} {c' : MapCall} {i : Choice}
    (hs : (MapCall.send call).step me h i = some (h', c')) :
    ∃ call', c' = .send call' ∧ call.step me h i = some (h', call') := by
  obtain ⟨⟨g, call'⟩, hp, he⟩ := Option.map_eq_some_iff.mp hs
  cases he
  exact ⟨call', rfl, hp⟩

theorem MapCall.step_push {me : Nat} {h h' : Host} {id : String} {msg : SimToServer}
    {pc : Option PushPc} {c' : MapCall} {i : Choice}
    (hs : (MapCall.push id msg pc).step me h i = some (h', c')) :
    ∃ pc₀, pc = some pc₀ ∧ i = .run ∧ h' = (pc₀.step id msg h).1 ∧
      c' = .push id msg (pc₀.step id msg h).2 := by
  cases pc with
  | none => cases hs
  | some pc₀ => cases i <;> cases hs; exact ⟨pc₀, rfl, rfl, rfl, rfl⟩

/-- A call of one kind never becomes a call of another kind. -/
theorem MapCall.step_kind {me : Nat} {h h' : Host} {c c' : MapCall} {i : Choice}
    (hs : c.step me h i = some (h', c')) :
    (c.sending = none → c'.sending = none) ∧
      ∀ id msg pc', c' = .push id msg pc' → ∃ pc, c = .push id msg pc := by
  cases c with
  | send call =>
    obtain ⟨call', rfl, -⟩ := step_send hs
    exact ⟨fun hn => absurd hn (by simp [sending]), fun id msg pc' he => by cases he⟩
  | push id msg pc =>
    obtain ⟨pc₀, -, -, -, rfl⟩ := step_push hs
    exact ⟨fun _ => rfl, fun id' msg' pc' he => by cases he; exact ⟨pc, rfl⟩⟩
  | removeIf id token pc =>
    cases pc with
    | none => cases hs
    | some pc =>
      obtain ⟨⟨g, out⟩, -, he⟩ := Option.map_eq_some_iff.mp hs
      cases he
      exact ⟨fun _ => rfl, fun _ _ _ he => by cases he⟩
  | update u returned =>
    cases returned <;> cases i <;> cases hs
    exact ⟨fun _ => rfl, fun _ _ _ he => by cases he⟩
  | environment =>
    obtain ⟨g, -, he⟩ := Option.map_eq_some_iff.mp hs
    cases he
    exact ⟨fun _ => rfl, fun _ _ _ he => by cases he⟩
  | _ => cases i <;> cases hs <;> exact ⟨fun _ => rfl, fun _ _ _ he => by cases he⟩

/-- A waiting call after a section was one before it, and the section may be its own. -/
theorem MapCall.send_before {me : Nat} {h h' : Host} {task task' : Nat → MapCall} {i : Choice}
    (hs : (task me).step me h i = some (h', task' me))
    (hother : ∀ t, t ≠ me → task' t = task t) {k : Nat} {call' : SendCall}
    (hk : task' k = .send call') :
    (k ≠ me ∧ task k = .send call') ∨
      (k = me ∧ ∃ call, task me = .send call ∧ call.step me h i = some (h', call')) := by
  by_cases hkm : k = me
  · subst hkm
    cases hc : (task k).sending with
    | none =>
      have hnone := (step_kind hs).1 hc
      rw [hk] at hnone
      cases hnone
    | some call =>
      have hcall := sending_eq_some.mp hc
      rw [hcall] at hs
      obtain ⟨call₁, he, hp⟩ := step_send hs
      obtain rfl : call₁ = call' := by simpa using he.symm.trans hk
      exact .inr ⟨rfl, call, hcall, hp⟩
  · exact .inl ⟨hkm, (hother k hkm).symm.trans hk⟩

/-- A waiting call keeps its arguments along a step of any task. -/
theorem fire_send {c c' : Config Host MapCall} {me : Nat} {i : Choice}
    (hf : mapCalls.fire c me i = some c') {t : Nat} {call : SendCall}
    (ht : c.task t = .send call) :
    ∃ call', c'.task t = .send call' ∧ call'.instanceId = call.instanceId ∧
      call'.msg = call.msg ∧ call'.kind = call.kind := by
  obtain ⟨hs, hother⟩ := fire_call hf
  by_cases htm : t = me
  · subst htm
    rw [ht] at hs
    obtain ⟨call', hcall', hp⟩ := MapCall.step_send hs
    exact ⟨call', hcall', SendCall.step_args hp⟩
  · exact ⟨call, (hother t htm).trans ht, rfl, rfl, rfl⟩

/-- A push keeps its arguments along a step of any task. -/
theorem fire_push {c c' : Config Host MapCall} {me : Nat} {i : Choice}
    (hf : mapCalls.fire c me i = some c') {t : Nat} {id : String} {msg : SimToServer}
    {pc : Option PushPc} (ht : c.task t = .push id msg pc) :
    ∃ pc', c'.task t = .push id msg pc' := by
  obtain ⟨hs, hother⟩ := fire_call hf
  by_cases htm : t = me
  · subst htm
    rw [ht] at hs
    obtain ⟨pc₀, -, -, -, hpush⟩ := MapCall.step_push hs
    exact ⟨_, hpush⟩
  · exact ⟨pc, (hother t htm).trans ht⟩

/-- The environment stays the environment. -/
theorem fire_call_environment {c c' : Config Host MapCall} {me : Nat} {i : Choice}
    (hf : mapCalls.fire c me i = some c') {t : Nat} (ht : c.task t = .environment) :
    c'.task t = .environment := by
  obtain ⟨hs, hother⟩ := fire_call hf
  by_cases htm : t = me
  · subst htm
    rw [ht] at hs
    obtain ⟨g, -, he⟩ := Option.map_eq_some_iff.mp hs
    exact (Prod.mk.inj he).2.symm
  · exact (hother t htm).trans ht

/-! ## What becomes true in a step -/

/-- The sender that the call has taken out of the waiter table. -/
def PushPc.holds : PushPc → Option Nat
  | .complete => none
  | .forget tx => some tx
  | .reply tx => some tx
  | .enqueue => none

theorem InstanceMap.takeMatching_fst {m : InstanceMap} {msg : SimToServer} {tx : Nat}
    (h : (m.takeMatching msg).1 = some tx) :
    msg.corr ≠ 0 ∧ ∃ kind, m.waiters.lookup msg.corr = some (kind, tx) ∧
      waiterMatches kind msg = true := by
  unfold takeMatching at h
  split at h
  · cases h
  · rename_i hcorr
    split at h
    · rename_i kind tx' hl
      split at h
      · rename_i hm
        cases h
        exact ⟨hcorr, kind, hl, hm⟩
      · cases h
    · cases h

theorem InstanceMap.takeMatching_of_lookup {m : InstanceMap} {msg : SimToServer}
    {kind : WaitKind} {tx : Nat} (hcorr : msg.corr ≠ 0)
    (hl : m.waiters.lookup msg.corr = some (kind, tx)) (hm : waiterMatches kind msg = true) :
    (m.takeMatching msg).1 = some tx := by
  unfold takeMatching
  rw [if_neg hcorr, hl]
  dsimp only
  rw [if_pos hm]

/-- The waiters left by `takeMatching`. -/
theorem InstanceMap.lookup_takeMatching (m : InstanceMap) (msg : SimToServer) (corr : UInt64) :
    (m.takeMatching msg).2.waiters.lookup corr =
      if (m.takeMatching msg).1.isSome ∧ corr = msg.corr then none else m.waiters.lookup corr := by
  unfold takeMatching
  split
  · simp
  · split
    · split
      · change Finmap.lookup corr (m.waiters.erase msg.corr) = _
        rw [HashMap.lookup_erase_ite]
        simp
      · simp
    · simp

theorem SendCall.step_registers {me : Nat} {h h' : Host} {c c' : SendCall} {i : Choice}
    (hs : c.step me h i = some (h', c')) {corr : UInt64} {kind : WaitKind} {tx : Nat}
    (hl : h'.instances.waiters.lookup corr = some (kind, tx)) :
    h.instances.waiters.lookup corr = some (kind, tx) ∨
      (tx = me ∧ kind = c.kind ∧ corr = c.msg.corr) := by
  cases step_section hs with
  | insertWaiter hpc =>
    rw [Host.dropSender_instances] at hl
    change Finmap.lookup corr (h.instances.waiters.insert c.msg.corr (c.kind, me)) = _ at hl
    rw [HashMap.lookup_insert_ite] at hl
    split at hl
    · rename_i hcorr
      cases hl
      exact Or.inr ⟨rfl, rfl, hcorr⟩
    · exact Or.inl hl
  | @queued instances hpc hsend =>
    change instances.waiters.lookup corr = _ at hl
    rw [(InstanceMap.trySend_frame hsend).1] at hl
    exact Or.inl hl
  | take hpc =>
    rw [Host.dropSender_instances] at hl
    exact Or.inl (HashMap.of_lookup_erase hl)
  | _ => exact Or.inl hl

theorem PushPc.step_registers {id : String} {msg : SimToServer} {h : Host} {pc : PushPc}
    {corr : UInt64} {waiter : WaitKind × Nat}
    (hl : (pc.step id msg h).1.instances.waiters.lookup corr = some waiter) :
    h.instances.waiters.lookup corr = some waiter := by
  cases pc with
  | complete =>
    change (h.instances.takeMatching msg).2.waiters.lookup corr = _ at hl
    rw [InstanceMap.lookup_takeMatching] at hl
    split at hl
    · cases hl
    · exact hl
  | _ => exact hl

theorem RemovePc.step_registers {id : String} {token : Nat} {h h' : Host} {pc : RemovePc}
    {i : Choice} {out : Option RemovePc} (hs : pc.step id token h i = some (h', out))
    {corr : UInt64} {waiter : WaitKind × Nat}
    (hl : h'.instances.waiters.lookup corr = some waiter) :
    h.instances.waiters.lookup corr = some waiter := by
  cases step_section hs with
  | entry =>
    change (h.instances.removeEntry id token).waiters.lookup corr = _ at hl
    rwa [(InstanceMap.removeEntry_frame ..).1] at hl
  | take =>
    rw [Host.dropSender_instances] at hl
    exact HashMap.of_lookup_erase hl
  | collect | done | pick => exact hl

/-- A waiter that is registered after a section was registered before, or the section
registered it for the call that ran. -/
theorem MapCall.step_registers {me : Nat} {h h' : Host} {c c' : MapCall} {i : Choice}
    (hs : c.step me h i = some (h', c')) {corr : UInt64} {kind : WaitKind} {tx : Nat}
    (hl : h'.instances.waiters.lookup corr = some (kind, tx)) :
    h.instances.waiters.lookup corr = some (kind, tx) ∨
      ∃ call, c = .send call ∧ tx = me ∧ kind = call.kind ∧ corr = call.msg.corr := by
  cases c with
  | send call =>
    obtain ⟨call', -, hp⟩ := step_send hs
    exact (SendCall.step_registers hp hl).imp_right fun hnew => ⟨call, rfl, hnew⟩
  | push id msg pc =>
    obtain ⟨pc₀, -, -, rfl, -⟩ := step_push hs
    exact Or.inl (PushPc.step_registers hl)
  | removeIf id token pc =>
    cases pc with
    | none => cases hs
    | some pc =>
      obtain ⟨⟨g, out⟩, hp, he⟩ := Option.map_eq_some_iff.mp hs
      cases he
      exact Or.inl (RemovePc.step_registers hp hl)
  | update u returned =>
    cases returned <;> cases i <;> cases hs
    change (u.apply h.instances).waiters.lookup corr = _ at hl
    rw [(u.apply_frame h.instances).1] at hl
    exact Or.inl hl
  | environment =>
    obtain ⟨g, hp, he⟩ := Option.map_eq_some_iff.mp hs
    cases he
    rw [(environmentStep_frame hp).1.waiters] at hl
    exact Or.inl hl
  | _ => cases i <;> cases hs <;> exact Or.inl hl

theorem Host.dropSender_sent {h : Host} {tx : Option Nat} {k : Nat} {via : String}
    {reply : SimToServer} (hs : (h.dropSender tx).oneshot k = .sent via reply) :
    h.oneshot k = .sent via reply := by
  rw [dropSender_oneshot] at hs
  split at hs
  · cases hs
  · exact hs

section

variable {k : Nat} {via : String} {reply : SimToServer}

theorem SendCall.step_sent {me : Nat} {h h' : Host} {c c' : SendCall} {i : Choice}
    (hs : c.step me h i = some (h', c')) (hk : h'.oneshot k = .sent via reply) :
    h.oneshot k = .sent via reply := by
  cases step_section hs with
  | insertWaiter hpc | take hpc =>
    have hold := Host.dropSender_sent hk
    exact hold
  | _ => exact hk

theorem PushPc.step_sent {id : String} {msg : SimToServer} {h : Host} {pc : PushPc}
    (hk : (pc.step id msg h).1.oneshot k = .sent via reply) :
    h.oneshot k = .sent via reply ∨ (pc = .reply k ∧ via = id ∧ reply = msg) := by
  cases pc with
  | reply tx =>
    by_cases hkt : k = tx
    · subst hkt
      simp only [step, Host.sendReply, Function.update_self] at hk
      cases hk
      exact Or.inr ⟨rfl, rfl, rfl⟩
    · simp only [step, Host.sendReply, Function.update_of_ne hkt] at hk
      exact Or.inl hk
  | _ => exact Or.inl hk

theorem RemovePc.step_sent {id : String} {token : Nat} {h h' : Host} {pc : RemovePc} {i : Choice}
    {out : Option RemovePc} (hs : pc.step id token h i = some (h', out))
    (hk : h'.oneshot k = .sent via reply) : h.oneshot k = .sent via reply := by
  cases step_section hs with
  | take =>
    have hold := Host.dropSender_sent hk
    exact hold
  | _ => exact hk

/-- Replies are sent by pushes only, each to the sender it holds. -/
theorem MapCall.step_sent {me : Nat} {h h' : Host} {c c' : MapCall} {i : Choice}
    (hs : c.step me h i = some (h', c')) (hk : h'.oneshot k = .sent via reply) :
    h.oneshot k = .sent via reply ∨ c = .push via reply (some (.reply k)) := by
  cases c with
  | send call =>
    obtain ⟨call', -, hp⟩ := step_send hs
    exact Or.inl (SendCall.step_sent hp hk)
  | push id msg pc =>
    obtain ⟨pc₀, rfl, -, rfl, -⟩ := step_push hs
    rcases PushPc.step_sent hk with hold | ⟨rfl, rfl, rfl⟩
    · exact Or.inl hold
    · exact Or.inr rfl
  | removeIf id token pc =>
    cases pc with
    | none => cases hs
    | some pc =>
      obtain ⟨⟨g, out⟩, hp, he⟩ := Option.map_eq_some_iff.mp hs
      cases he
      exact Or.inl (RemovePc.step_sent hp hk)
  | update u returned => cases returned <;> cases i <;> cases hs; exact Or.inl hk
  | environment =>
    obtain ⟨g, hp, he⟩ := Option.map_eq_some_iff.mp hs
    cases he
    rw [(environmentStep_frame hp).1.oneshot] at hk
    exact Or.inl hk
  | _ => cases i <;> cases hs <;> exact Or.inl hk

end

/-- A push takes its sender from the waiter table, when the waiter under the corr of
the envelope accepts it. -/
theorem PushPc.step_holds {id : String} {msg : SimToServer} {h : Host} {pc pc' : PushPc} {tx : Nat}
    (hout : (pc.step id msg h).2 = some pc') (htx : pc'.holds = some tx) :
    pc.holds = some tx ∨ (pc = .complete ∧ msg.corr ≠ 0 ∧
      ∃ kind, h.instances.waiters.lookup msg.corr = some (kind, tx) ∧
        InstanceMap.waiterMatches kind msg = true) := by
  cases pc with
  | complete =>
    rw [PushPc.step_complete] at hout
    cases htake : (h.instances.takeMatching msg).1 with
    | none =>
      rw [htake] at hout
      obtain rfl := Option.some.inj hout
      cases htx
    | some tx' =>
      rw [htake] at hout
      obtain rfl := Option.some.inj hout
      obtain rfl := Option.some.inj htx
      exact Or.inr ⟨rfl, InstanceMap.takeMatching_fst htake⟩
  | forget tx' =>
    obtain rfl := Option.some.inj hout
    exact Or.inl htx
  | reply tx' =>
    obtain rfl := Option.some.inj hout
    cases htx
  | enqueue => cases hout

/-- A registered waiter belongs to the call that made it. -/
theorem fire_registered {c c' : Config Host MapCall} {me : Nat} {i : Choice}
    (hf : mapCalls.fire c me i = some c')
    (hreg : ∀ corr kind tx, c.shared.instances.waiters.lookup corr = some (kind, tx) →
      ∃ call, c.task tx = .send call ∧ call.kind = kind ∧ call.msg.corr = corr)
    {corr : UInt64} {kind : WaitKind} {tx : Nat}
    (hl : c'.shared.instances.waiters.lookup corr = some (kind, tx)) :
    ∃ call, c'.task tx = .send call ∧ call.kind = kind ∧ call.msg.corr = corr := by
  have hcall : ∃ call, c.task tx = .send call ∧ call.kind = kind ∧ call.msg.corr = corr := by
    rcases MapCall.step_registers (fire_call hf).1 hl with hold | ⟨call, hme, rfl, rfl, rfl⟩
    · exact hreg corr kind tx hold
    · exact ⟨call, hme, rfl, rfl⟩
  obtain ⟨call, htx, rfl, rfl⟩ := hcall
  obtain ⟨call', htx', -, hmsg, hkind⟩ := fire_send hf htx
  exact ⟨call', htx', hkind, congrArg ServerToSim.corr hmsg⟩

/-- A push that holds a sender held it before, or it has just taken it. -/
theorem fire_holds {c c' : Config Host MapCall} {me : Nat} {i : Choice}
    (hf : mapCalls.fire c me i = some c') {t tx : Nat} {id : String} {msg : SimToServer}
    {pc : PushPc} (ht : c'.task t = .push id msg (some pc)) (htx : pc.holds = some tx) :
    ∃ pc₀, c.task t = .push id msg (some pc₀) ∧ (pc₀.holds = some tx ∨
      (t = me ∧ pc₀ = .complete ∧ msg.corr ≠ 0 ∧
        ∃ kind, c.shared.instances.waiters.lookup msg.corr = some (kind, tx) ∧
          InstanceMap.waiterMatches kind msg = true)) := by
  obtain ⟨hs, hother⟩ := fire_call hf
  by_cases htm : t = me
  · subst htm
    obtain ⟨pc₀, hme⟩ := (MapCall.step_kind hs).2 id msg (some pc) ht
    rw [hme, ht] at hs
    obtain ⟨pc₁, rfl, -, -, hnext⟩ := MapCall.step_push hs
    have hout : (pc₁.step id msg c.shared).2 = some pc := by
      injection hnext with _ _ hout
      exact hout.symm
    exact ⟨pc₁, hme, (PushPc.step_holds hout htx).imp_right fun htaken => ⟨rfl, htaken⟩⟩
  · rw [hother t htm] at ht
    exact ⟨pc, ht, .inl htx⟩

/-- A call returns a reply only from its own channel. -/
theorem SendCall.step_returned {me : Nat} {h h' : Host} {c c' : SendCall} {i : Choice}
    (hs : c.step me h i = some (h', c')) {reply : SimToServer}
    (hr : c'.pc = .returned (.ok reply)) :
    ∃ via, h.oneshot me = .sent via reply ∧ c'.via = some via := by
  cases step_section hs with
  | answered hpc hsent =>
    cases hr
    exact ⟨_, hsent, rfl⟩
  | _ => cases hr

end CsmProxy
