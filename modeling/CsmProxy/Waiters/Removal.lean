import CsmProxy.Foundations.History
import CsmProxy.Waiters.SlotRefinement

/-!
# Whose waiters a removal fails

`remove_if` takes the entry out under the lock of the map and looks for the waiters of
the id afterwards, under other locks. In between a new session for the id can be
inserted and a request can be queued on it, and the removal fails its waiter
(`not_removalsOwn_successor`).

A removal fails waiters of its own session only, as long as no session is inserted while a
waiter of its id is registered, and no waiter is registered for a connected id while a
removal of the id has yet to look for the waiters (`removalsOwn_of_keepsApart`). The runs
are recorded: which removal took the waiter of which call.
-/

namespace CsmProxy

open Foundations

/-! ## The history -/

/-- `remove_if(id, token)` took the waiter of the call of task `call`. -/
structure WaiterTaken where
  call : Nat
  id : String
  token : Nat
deriving DecidableEq

/-- The removals that take a waiter. -/
def noteRemoval : Note Host MapCall Choice WaiterTaken := fun _ h c _ =>
  match c with
  | .removeIf id token (some (.take corr _)) =>
    (h.instances.waiters.lookup corr).map fun waiter => ⟨waiter.2, id, token⟩
  | _ => none

/-- The calls of the map with the history of its removals. -/
def removalHistory : Pool (Host × List WaiterTaken) MapCall Choice :=
  mapCalls.recording noteRemoval

/-- A removal fails only calls whose request was put on the queue of its own session. -/
def RemovalsOwn (c : Config (Host × List WaiterTaken) MapCall) : Prop :=
  ∀ taken ∈ c.shared.2, ∀ call, c.task taken.call = .send call →
    call.pc = .returned (.error .disconnected) → call.session = some taken.token

/-! ## The condition -/

/-- The call has registered a waiter for `id`: it is about to queue its request, or it waits for
its reply and is recorded. -/
def MapCall.registeredFor (m : InstanceMap) (id : String) : MapCall → Bool
  | .send call =>
    call.instanceId = id && match call.pc with
      | .trySend => true
      | .await _ => m.waiterInstance.lookup call.msg.corr = some id
      | _ => false
  | _ => false

/-- The call is a removal of `id` between the map and the waiters. -/
def MapCall.collects (id : String) : MapCall → Bool
  | .removeIf id' _ (some .collect) => id' = id
  | _ => false

/-- The section of the call falls into the other one: it inserts a session while the other has a
waiter registered for the id, or it registers a waiter for a connected id while the other is a
removal of the id that has yet to look for the waiters. -/
def MapCall.fallsInto (m : InstanceMap) (c other : MapCall) : Bool :=
  match c with
  | .inserting _ register _ _ => other.registeredFor m register.instanceId
  | .send call =>
    call.pc = .insertInstance && (m.tokenOf call.instanceId).isSome &&
      other.collects call.instanceId
  | _ => false

/-- The guard of the runs in which no section falls into another call. -/
def KeepsApart : Pool.Guard Host MapCall Choice := fun c me _ =>
  ∀ k, (c.task me).fallsInto c.shared.instances (c.task k) = false

/-! ## What a section does to the sessions -/

theorem InstanceMap.tokenOf_congr {m m' : InstanceMap} (h : m'.inner = m.inner) :
    m'.tokenOf = m.tokenOf := by
  funext id
  rw [tokenOf, h, tokenOf]

theorem InstanceMap.tokenOf_removeEntry_self (m : InstanceMap) (id : String) (token : Nat) :
    (m.removeEntry id token).tokenOf id = if m.owns id token then none else m.tokenOf id := by
  unfold removeEntry
  split
  · change Option.map _ (Finmap.lookup id (m.inner.erase id)) = none
    rw [HashMap.lookup_erase_ite, if_pos rfl, Option.map_none]
  · rfl

theorem InstanceMap.tokenOf_of_owns {m : InstanceMap} {id : String} {token : Nat}
    (h : m.owns id token = true) : m.tokenOf id = some token := by
  unfold owns at h
  obtain ⟨inst, hid, htoken⟩ := (Option.any_eq_true ..).mp h
  rw [tokenOf, hid]
  exact congrArg some (of_decide_eq_true htoken)

theorem SendCall.step_tokenOf {me : Nat} {h h' : Host} {c c' : SendCall} {i : Choice}
    (hs : c.step me h i = some (h', c')) : h'.instances.tokenOf = h.instances.tokenOf := by
  cases step_section hs with
  | insertWaiter hpc | take hpc =>
    rw [Host.dropSender_instances]
    rfl
  | queued hpc hsend => exact (InstanceMap.trySend_frame hsend).2.2.1
  | _ => rfl

theorem PushPc.step_tokenOf (id : String) (msg : SimToServer) (h : Host) (pc : PushPc) :
    (pc.step id msg h).1.instances.tokenOf = h.instances.tokenOf := by
  cases pc with
  | complete => exact InstanceMap.tokenOf_congr (h.instances.takeMatching_frame msg).1
  | forget tx => rfl
  | reply tx => rfl
  | enqueue => exact h.instances.tokenOf_enqueueInbound id msg

/-- The session of an id after a section is the one before it, unless the section removes it or
inserts another one. -/
theorem MapCall.step_tokenOf {me : Nat} {h h' : Host} {c c' : MapCall} {i : Choice}
    (hs : c.step me h i = some (h', c')) (id : String) :
    h'.instances.tokenOf id = h.instances.tokenOf id ∨ h'.instances.tokenOf id = none ∨
      ∃ token register cap cap', c = .inserting token register cap cap' ∧
        register.instanceId = id := by
  cases c with
  | send call =>
    obtain ⟨call', -, hp⟩ := step_send hs
    exact .inl (congrFun (SendCall.step_tokenOf hp) id)
  | push id' msg pc =>
    obtain ⟨pc₀, -, -, rfl, -⟩ := step_push hs
    exact .inl (congrFun (PushPc.step_tokenOf id' msg h pc₀) id)
  | insert register cap cap' => cases i <;> cases hs; exact .inl rfl
  | inserting token register cap cap' =>
    cases i <;> cases hs
    by_cases hid : register.instanceId = id
    · exact .inr (.inr ⟨token, register, cap, cap', rfl, hid⟩)
    · rw [InstanceMap.tokenOf_insertInstance, if_neg (Ne.symm hid)]
      exact .inl rfl
  | inserted token register => cases i <;> cases hs
  | removeIf id' token pc =>
    cases pc with
    | none => cases hs
    | some pc =>
      obtain ⟨⟨g, out⟩, hp, he⟩ := Option.map_eq_some_iff.mp hs
      cases he
      cases RemovePc.step_section hp with
      | entry =>
        change (h.instances.removeEntry id' token).tokenOf id = _ ∨ _
        by_cases hid : id = id'
        · subst hid
          rw [InstanceMap.tokenOf_removeEntry_self]
          split
          · exact .inr (.inl rfl)
          · exact .inl rfl
        · exact .inl (h.instances.tokenOf_removeEntry id' token id hid)
      | take =>
        rw [Host.dropSender_instances]
        exact .inl rfl
      | _ => exact .inl rfl
  | update u returned =>
    cases returned <;> cases i <;> cases hs
    exact .inl (congrFun (u.apply_frame h.instances).2.2 id)
  | environment =>
    obtain ⟨g, hp, he⟩ := Option.map_eq_some_iff.mp hs
    cases he
    exact .inl (congrFun (environmentStep_frame hp).2 id)

/-! ## Calls that a removal may fail -/

/-- If the call waits for its reply, now or later, it waits on the session `token`. -/
structure SendCall.WaitsOn (token : Nat) (m : InstanceMap) (call : SendCall) : Prop where
  registered : call.pc.registering = false
  unqueued : call.pc = .trySend → m.tokenOf call.instanceId = none
  waiting : ∀ deadline, call.pc = .await deadline → call.session = some token

/-- The call itself goes on. -/
theorem SendCall.WaitsOn.step {me token : Nat} {h h' : Host} {call call' : SendCall} {i : Choice}
    (waits : call.WaitsOn token h.instances) (hs : call.step me h i = some (h', call')) :
    call'.WaitsOn token h'.instances := by
  obtain ⟨id, msg, timeout, kind, pc, session, via⟩ := call
  obtain ⟨hregistered, hunqueued, hwaiting⟩ := waits
  cases step_section hs with
  | connected hpc | unknown hpc | insertWaiter hpc | insertInstance hpc =>
    obtain rfl : pc = _ := hpc
    cases hregistered
  | queued hpc hsend =>
    -- there is no session to queue it on
    have hconnected := (InstanceMap.trySend_frame hsend).2.2.2
    rw [hunqueued hpc] at hconnected
    cases hconnected
  | refused hpc | forget hpc | take hpc | answered hpc | disconnected hpc | timedOut hpc =>
    exact ⟨rfl, nofun, nofun⟩

theorem SendCall.WaitsOn.of_step {token : Nat} {m m' : InstanceMap} {call : SendCall}
    (waits : call.WaitsOn token m)
    (hkeep : call.pc = .trySend → m.tokenOf call.instanceId = none →
      m'.tokenOf call.instanceId = none) : call.WaitsOn token m' where
  registered := waits.registered
  unqueued hpc := hkeep hpc (waits.unqueued hpc)
  waiting := waits.waiting

section

variable {c c' : Config Host MapCall} {me : Nat} {i : Choice}

theorem KeepsApart.of_inserting (guard : KeepsApart c me i) {token k : Nat} {register : Register}
    {cap cap' : UInt64} {call : SendCall} (hme : c.task me = .inserting token register cap cap')
    (hk : c.task k = .send call) (hid : call.instanceId = register.instanceId) :
    call.pc ≠ .trySend ∧ ∀ deadline, call.pc = .await deadline →
      c.shared.instances.waiterInstance.lookup call.msg.corr ≠ some register.instanceId := by
  have hnot := guard k
  simp only [hme, hk, MapCall.fallsInto, MapCall.registeredFor, hid, decide_true,
    Bool.true_and] at hnot
  refine ⟨fun hpc => ?_, fun deadline hpc hl => ?_⟩
  · rw [hpc] at hnot
    cases hnot
  · rw [hpc] at hnot
    exact absurd hl (of_decide_eq_false hnot)

theorem KeepsApart.of_registering (guard : KeepsApart c me i) {token p : Nat} {call : SendCall}
    (hme : c.task me = .send call) (hpc : call.pc = .insertInstance)
    (hp : c.task p = .removeIf call.instanceId token (some .collect)) :
    c.shared.instances.tokenOf call.instanceId = none := by
  have hnot := guard p
  simp only [hme, hp, MapCall.fallsInto, MapCall.collects, hpc, decide_true, Bool.true_and,
    Bool.and_true] at hnot
  exact Option.isNone_iff_eq_none.mp (Option.isSome_eq_false_iff.mp hnot)

/-- No session is inserted under the id of a call that is about to queue its request. -/
theorem KeepsApart.tokenOf_eq_none (guard : KeepsApart c me i)
    (hf : mapCalls.fire c me i = some c') {k : Nat} {call : SendCall} (hk : c.task k = .send call)
    (hpc : call.pc = .trySend) (hnone : c.shared.instances.tokenOf call.instanceId = none) :
    c'.shared.instances.tokenOf call.instanceId = none := by
  rcases MapCall.step_tokenOf (fire_call hf).1 call.instanceId with
    hsame | hgone | ⟨token, register, cap, cap', hme, hid⟩
  · exact hsame.trans hnone
  · exact hgone
  · exact absurd hpc (guard.of_inserting hme hk hid.symm).1

/-- Whatever section runs, the call keeps to the session. -/
theorem SendCall.WaitsOn.fire {token k : Nat} {call call' : SendCall}
    (waits : call.WaitsOn token c.shared.instances) (guard : KeepsApart c me i)
    (hf : mapCalls.fire c me i = some c') (hk : c.task k = .send call)
    (hk' : c'.task k = .send call') : call'.WaitsOn token c'.shared.instances := by
  obtain ⟨hs, hother⟩ := fire_call hf
  rcases MapCall.send_before hs hother hk' with ⟨hne, hold⟩ | ⟨rfl, call₀, hcall₀, hp⟩
  · obtain rfl : call = call' := by simpa using hk.symm.trans hold
    exact waits.of_step fun hpc hnone => guard.tokenOf_eq_none hf hk hpc hnone
  · obtain rfl : call = call₀ := by simpa using hk.symm.trans hcall₀
    exact waits.step hp

end

/-! ## The invariant -/

theorem SendCall.step_registering {me : Nat} {h h' : Host} {call call' : SendCall} {i : Choice}
    (hs : call.step me h i = some (h', call')) (hpc : call.pc.registering = false) :
    call'.pc.registering = false := by
  obtain ⟨id, msg, timeout, kind, pc, session, via⟩ := call
  cases step_section hs with
  | connected h | unknown h | insertWaiter h | insertInstance h =>
    obtain rfl : pc = _ := h
    cases hpc
  | _ => rfl

/-- A call that has registered its waiter is about to queue its request. -/
theorem SendCall.step_trySend {me : Nat} {h h' : Host} {call call' : SendCall} {i : Choice}
    (hs : call.step me h i = some (h', call')) (hpc : call.pc = .insertInstance) :
    call'.pc = .trySend ∧ call'.instanceId = call.instanceId := by
  obtain ⟨id, msg, timeout, kind, pc, session, via⟩ := call
  obtain rfl : pc = .insertInstance := hpc
  cases i <;> cases hs
  exact ⟨rfl, rfl⟩

/-- A call comes to wait on the session that is connected. -/
theorem SendCall.step_await {me : Nat} {h h' : Host} {call call' : SendCall} {i : Choice}
    (hs : call.step me h i = some (h', call')) {deadline : Nat} (hpc : call'.pc = .await deadline) :
    call'.session = h'.instances.tokenOf call'.instanceId := by
  cases step_section hs with
  | queued _ hsend => exact congrFun (InstanceMap.trySend_frame hsend).2.2.1.symm call.instanceId
  | _ => cases hpc

/-- A removal that is about to look for the waiters has just taken its session out. -/
theorem MapCall.step_collect {me : Nat} {h h' : Host} {c : MapCall} {i : Choice} {id : String}
    {token : Nat} (hs : c.step me h i = some (h', .removeIf id token (some .collect))) :
    c = .removeIf id token (some .entry) ∧ h.instances.owns id token = true ∧
      h'.instances = h.instances.removeEntry id token ∧ SameWaiters h h' := by
  cases c with
  | removeIf id' token' pc =>
    cases pc with
    | none => cases hs
    | some pc =>
      obtain ⟨⟨g, out⟩, hp, he⟩ := Option.map_eq_some_iff.mp hs
      cases he
      cases i <;> cases pc <;> simp only [RemovePc.step] at hp
      case run.entry =>
        split at hp <;> cases hp
        rename_i hown
        obtain ⟨hw, hr⟩ := InstanceMap.removeEntry_frame h.instances id token
        exact ⟨rfl, hown, rfl, hw, hr, rfl⟩
      case run.next => split at hp <;> cases hp
      case pick.next => split at hp <;> cases hp
      all_goals cases hp
  | send call =>
    obtain ⟨call', he, -⟩ := step_send hs
    cases he
  | push id' msg pc =>
    obtain ⟨pc₀, -, -, -, he⟩ := step_push hs
    cases he
  | update u returned => cases returned <;> cases i <;> cases hs
  | environment =>
    obtain ⟨g, -, he⟩ := Option.map_eq_some_iff.mp hs
    cases he
  | _ => cases i <;> cases hs

/-- The corrs that a removal works on, it found when it looked for the waiters of its id. -/
theorem MapCall.step_lists {me : Nat} {h h' : Host} {c : MapCall} {i : Choice} {id : String}
    {token : Nat} {pc' : Option RemovePc} {corr : UInt64}
    (hs : c.step me h i = some (h', .removeIf id token pc'))
    (hl : (MapCall.removeIf id token pc').lists corr = true ∨
      (MapCall.removeIf id token pc').takes corr = true) :
    ∃ pc, c = .removeIf id token (some pc) ∧
      ((pc = .collect ∧ h.instances.waiterInstance.lookup corr = some id) ∨
        c.lists corr = true ∨ c.takes corr = true) := by
  cases c with
  | removeIf id' token' pc =>
    cases pc with
    | none => cases hs
    | some pc =>
      obtain ⟨⟨g, out⟩, hp, he⟩ := Option.map_eq_some_iff.mp hs
      cases he
      refine ⟨pc, rfl, ?_⟩
      cases RemovePc.step_section hp with
      | entry =>
        split at hl <;> (rcases hl with hl | hl <;> cases hl)
      | collect =>
        rcases hl with hl | hl
        · exact .inl ⟨rfl, InstanceMap.mem_waitersOf.mp (of_decide_eq_true hl)⟩
        · cases hl
      | done => rcases hl with hl | hl <;> cases hl
      | @pick corr' rest hmem =>
        refine .inr (.inl (decide_eq_true ?_))
        rcases hl with hl | hl
        · exact Finset.mem_of_mem_erase (of_decide_eq_true hl)
        · exact of_decide_eq_true hl ▸ hmem
      | take =>
        rcases hl with hl | hl
        · exact .inr (.inl hl)
        · cases hl
  | send call =>
    obtain ⟨call', he, -⟩ := step_send hs
    cases he
  | push id' msg pc =>
    obtain ⟨pc₀, -, -, -, he⟩ := step_push hs
    cases he
  | update u returned => cases returned <;> cases i <;> cases hs
  | environment =>
    obtain ⟨g, -, he⟩ := Option.map_eq_some_iff.mp hs
    cases he
  | _ => cases i <;> cases hs

/-- What holds in the runs that meet the condition. -/
structure KeptApart (c : Config Host MapCall) : Prop extends Sound c where
  recorded : ∀ k call id, c.task k = .send call →
    c.shared.instances.waiterInstance.lookup call.msg.corr = some id →
      call.instanceId = id ∧ call.pc.registering = false
  current : ∀ k call deadline token, c.task k = .send call → call.pc = .await deadline →
    c.shared.instances.waiterInstance.lookup call.msg.corr = some call.instanceId →
      c.shared.instances.tokenOf call.instanceId = some token → call.session = some token
  collecting : ∀ p id token k call, c.task p = .removeIf id token (some .collect) →
    c.task k = .send call → c.shared.instances.waiterInstance.lookup call.msg.corr = some id →
      call.WaitsOn token c.shared.instances
  listed : ∀ p id token pc k call, c.task p = .removeIf id token pc → c.task k = .send call →
    (c.task p).lists call.msg.corr = true ∨ (c.task p).takes call.msg.corr = true →
      call.WaitsOn token c.shared.instances

namespace KeptApart

variable {c c' : Config Host MapCall} {me : Nat} {i : Choice}

/-- Who recorded the instance of a waiting call: it was recorded before, or the call has just
done it. -/
theorem record_before (inv : KeptApart c) (hf : mapCalls.fire c me i = some c') {k : Nat}
    {call' : SendCall} {id : String} (hk' : c'.task k = .send call')
    (hl : c'.shared.instances.waiterInstance.lookup call'.msg.corr = some id) :
    (∃ call, c.task k = .send call ∧ call'.msg = call.msg ∧ call'.instanceId = call.instanceId ∧
      c.shared.instances.waiterInstance.lookup call.msg.corr = some id) ∨
    (k = me ∧ call'.instanceId = id ∧ call'.pc = .trySend ∧ ∃ call, c.task k = .send call ∧
      call.pc = .insertInstance ∧ call.instanceId = id) := by
  obtain ⟨hs, hother⟩ := fire_call hf
  obtain ⟨call, hk, hmsg⟩ := Linked.call_before hf hk'
  rw [hmsg] at hl
  rcases MapCall.step_recorded hs hl with hold | ⟨call₀, hme, hcorr, hid, hpc⟩
  · obtain ⟨call₁, hk₁, hid₁, -⟩ := fire_send hf hk
    obtain rfl : call₁ = call' := by simpa using hk₁.symm.trans hk'
    exact .inl ⟨call, hk, hmsg, hid₁, hold⟩
  · obtain rfl := inv.linked.distinct me k call₀ call hme hk hcorr
    obtain rfl : call₀ = call := by simpa using hme.symm.trans hk
    rcases MapCall.send_before hs hother hk' with ⟨hne, -⟩ | ⟨-, call₁, hcall₁, hp⟩
    · exact absurd rfl hne
    · obtain rfl : call₀ = call₁ := by simpa using hme.symm.trans hcall₁
      obtain ⟨hpc', hid'⟩ := SendCall.step_trySend hp hpc
      exact .inr ⟨rfl, hid'.trans hid, hpc', call₀, hk, hpc, hid⟩

theorem step_recorded (inv : KeptApart c) (hf : mapCalls.fire c me i = some c') {k : Nat}
    {call' : SendCall} {id : String} (hk' : c'.task k = .send call')
    (hl : c'.shared.instances.waiterInstance.lookup call'.msg.corr = some id) :
    call'.instanceId = id ∧ call'.pc.registering = false := by
  rcases inv.record_before hf hk' hl with ⟨call, hk, -, hid, hold⟩ | ⟨-, hid, hpc, -⟩
  · obtain ⟨hsame, hreg⟩ := inv.recorded k call id hk hold
    refine ⟨hid.trans hsame, ?_⟩
    obtain ⟨hs, hother⟩ := fire_call hf
    rcases MapCall.send_before hs hother hk' with ⟨-, hk₀⟩ | ⟨rfl, call₀, hcall₀, hp⟩
    · obtain rfl : call = call' := by simpa using hk.symm.trans hk₀
      exact hreg
    · obtain rfl : call = call₀ := by simpa using hk.symm.trans hcall₀
      exact SendCall.step_registering hp hreg
  · rw [hpc]
    exact ⟨hid, rfl⟩

theorem step_current (inv : KeptApart c) (guard : KeepsApart c me i)
    (hf : mapCalls.fire c me i = some c') {k deadline token : Nat} {call' : SendCall}
    (hk' : c'.task k = .send call') (hpc' : call'.pc = .await deadline)
    (hl : c'.shared.instances.waiterInstance.lookup call'.msg.corr = some call'.instanceId)
    (htoken : c'.shared.instances.tokenOf call'.instanceId = some token) :
    call'.session = some token := by
  obtain ⟨hs, hother⟩ := fire_call hf
  rcases MapCall.send_before hs hother hk' with ⟨-, hk⟩ | ⟨rfl, call, -, hp⟩
  · rcases inv.record_before hf hk' hl with ⟨call, hk₀, -, -, hold⟩ | ⟨-, -, hpc, -⟩
    · obtain rfl : call = call' := by simpa using hk₀.symm.trans hk
      rcases MapCall.step_tokenOf hs call.instanceId with
        hsame | hgone | ⟨token', register, cap, cap', hme, hid⟩
      · exact inv.current k call deadline token hk hpc' hold (hsame.symm.trans htoken)
      · exact absurd (hgone.symm.trans htoken) (by simp)
      · -- no session is inserted while the call waits
        exact absurd (hid ▸ hold) ((guard.of_inserting hme hk hid.symm).2 deadline hpc')
    · exact absurd (hpc.symm.trans hpc') (by simp)
  · exact (SendCall.step_await hp hpc').trans htoken

theorem step_collecting (inv : KeptApart c) (guard : KeepsApart c me i)
    (hf : mapCalls.fire c me i = some c') {p k token : Nat} {id : String} {call' : SendCall}
    (hp' : c'.task p = .removeIf id token (some .collect)) (hk' : c'.task k = .send call')
    (hl : c'.shared.instances.waiterInstance.lookup call'.msg.corr = some id) :
    call'.WaitsOn token c'.shared.instances := by
  obtain ⟨hs, hother⟩ := fire_call hf
  by_cases hpm : p = me
  · subst hpm
    rw [hp'] at hs
    obtain ⟨hp, hown, hremoved, hsame⟩ := MapCall.step_collect hs
    have hkp : k ≠ p := by
      rintro rfl
      cases hk'.symm.trans hp'
    have hk : c.task k = .send call' := (hother k hkp).symm.trans hk'
    rw [hsame.waiterInstance] at hl
    obtain ⟨rfl, hreg⟩ := inv.recorded k call' id hk hl
    refine ⟨hreg, fun _ => ?_, fun deadline hpc => ?_⟩
    · rw [hremoved, InstanceMap.tokenOf_removeEntry_self, if_pos hown]
    · exact inv.current k call' deadline token hk hpc hl (InstanceMap.tokenOf_of_owns hown)
  · have hp : c.task p = .removeIf id token (some .collect) := (hother p hpm).symm.trans hp'
    rcases inv.record_before hf hk' hl with ⟨call, hk, -, -, hold⟩ |
      ⟨rfl, hid', hpc', call, hk, hpc, hid⟩
    · exact (inv.collecting p id token k call hp hk hold).fire guard hf hk hk'
    · -- the waiter is registered now: the id is not connected
      have hnone := guard.of_registering hk hpc (hid ▸ hp)
      rw [hk] at hs
      obtain ⟨call₁, -, hstep⟩ := MapCall.step_send hs
      refine ⟨by rw [hpc']; rfl, fun _ => ?_, fun deadline hawait => ?_⟩
      · rw [hid', ← hid, SendCall.step_tokenOf hstep]
        exact hnone
      · exact absurd (hpc'.symm.trans hawait) (by simp)

theorem step_listed (inv : KeptApart c) (guard : KeepsApart c me i)
    (hf : mapCalls.fire c me i = some c') {p k token : Nat} {id : String} {pc' : Option RemovePc}
    {call' : SendCall} (hp' : c'.task p = .removeIf id token pc') (hk' : c'.task k = .send call')
    (hl : (c'.task p).lists call'.msg.corr = true ∨ (c'.task p).takes call'.msg.corr = true) :
    call'.WaitsOn token c'.shared.instances := by
  obtain ⟨hs, hother⟩ := fire_call hf
  obtain ⟨call, hk, hmsg⟩ := Linked.call_before hf hk'
  rw [hmsg] at hl
  refine SendCall.WaitsOn.fire (c := c) ?_ guard hf hk hk'
  by_cases hpm : p = me
  · subst hpm
    rw [hp'] at hs hl
    obtain ⟨pc, hp, hbefore⟩ := MapCall.step_lists hs hl
    rcases hbefore with ⟨rfl, hrecorded⟩ | hold
    · exact inv.collecting p id token k call hp hk hrecorded
    · exact inv.listed p id token (some pc) k call hp hk hold
  · rw [hother p hpm] at hp' hl
    exact inv.listed p id token pc' k call hp' hk hl

theorem of_boot (boot : MapBoot c) (distinct : DistinctCorrs c) : KeptApart c := by
  obtain ⟨default, config, now, hshared⟩ := boot.shared
  have hnone : ∀ corr id, c.shared.instances.waiterInstance.lookup corr ≠ some id := by
    intro corr id hl
    rw [hshared] at hl
    exact absurd (hl.symm.trans (HashMap.lookup_empty corr)) (by simp)
  refine ⟨.of_boot boot distinct, fun k call id _ hl => absurd hl (hnone _ _),
    fun k call deadline token _ _ hl => absurd hl (hnone _ _),
    fun p id token k call _ _ hl => absurd hl (hnone _ _),
    fun p id token pc k call hp _ hl => ?_⟩
  have hfresh := boot.fresh p
  rw [hp] at hfresh hl
  obtain rfl : pc = some .entry := hfresh
  rcases hl with hl | hl <;> cases hl

theorem step (inv : KeptApart c) (guard : KeepsApart c me i)
    (hf : mapCalls.fire c me i = some c') : KeptApart c' where
  toSound := inv.toSound.step hf
  recorded _ _ _ hk' hl := inv.step_recorded hf hk' hl
  current _ _ _ _ hk' hpc' hl htoken := inv.step_current guard hf hk' hpc' hl htoken
  collecting _ _ _ _ _ hp' hk' hl := inv.step_collecting guard hf hp' hk' hl
  listed _ _ _ _ _ _ hp' hk' hl := inv.step_listed guard hf hp' hk' hl

end KeptApart

/-! ## The result -/

/-- What the history says about the calls whose waiters were taken. -/
structure RemovalInv (c : Config (Host × List WaiterTaken) MapCall) : Prop where
  apart : KeptApart c.erase
  errors : ∀ k call err, c.task k = .send call → call.pc = .forget err ∨ call.pc = .take err →
    err ≠ .disconnected
  taken : ∀ taken ∈ c.shared.2, ∀ call, c.task taken.call = .send call →
    call.WaitsOn taken.token c.shared.1.instances ∧
      (call.pc = .returned (.error .disconnected) → call.session = some taken.token)

/-- A call gives up because its request could not be queued, or its reply did not come. -/
theorem SendCall.step_errors {me : Nat} {h h' : Host} {call call' : SendCall} {i : Choice}
    (hs : call.step me h i = some (h', call'))
    (herrors : ∀ err, call.pc = .forget err ∨ call.pc = .take err → err ≠ .disconnected)
    {err : WaitError} (hpc : call'.pc = .forget err ∨ call'.pc = .take err) :
    err ≠ .disconnected := by
  cases step_section hs with
  | refused _ _ same =>
    rcases hpc with hpc | hpc <;> cases hpc
    rcases same with ⟨-, rfl⟩ | ⟨-, rfl⟩ <;> simp
  | forget hold =>
    rcases hpc with hpc | hpc <;> cases hpc
    exact herrors err (.inl hold)
  | timedOut =>
    rcases hpc with hpc | hpc <;> cases hpc
    simp
  | _ => rcases hpc with hpc | hpc <;> cases hpc

/-- A call that returns `Disconnected` was waiting, or had returned it. -/
theorem SendCall.step_disconnected {me : Nat} {h h' : Host} {call call' : SendCall} {i : Choice}
    (hs : call.step me h i = some (h', call'))
    (herrors : ∀ err, call.pc = .forget err ∨ call.pc = .take err → err ≠ .disconnected)
    (hpc : call'.pc = .returned (.error .disconnected)) :
    call'.session = call.session ∧ ∃ deadline, call.pc = .await deadline := by
  cases step_section hs with
  | disconnected hold => exact ⟨rfl, _, hold⟩
  | take hold =>
    cases hpc
    exact absurd rfl (herrors .disconnected (.inr hold))
  | _ => cases hpc

theorem noteRemoval_eq_some {me : Nat} {h : Host} {c : MapCall} {i : Choice} {taken : WaiterTaken}
    (hn : noteRemoval me h c i = some taken) :
    ∃ corr rest kind, c = .removeIf taken.id taken.token (some (.take corr rest)) ∧
      h.instances.waiters.lookup corr = some (kind, taken.call) := by
  unfold noteRemoval at hn
  split at hn
  · rename_i corr rest
    obtain ⟨⟨kind, k⟩, hl, rfl⟩ := Option.map_eq_some_iff.mp hn
    exact ⟨corr, rest, kind, rfl, hl⟩
  · cases hn

namespace RemovalInv

variable {c c' : Config (Host × List WaiterTaken) MapCall} {me : Nat} {i : Choice}

theorem step_taken (inv : RemovalInv c) (guard : KeepsApart c.erase me i)
    (hf : removalHistory.fire c me i = some c') {taken : WaiterTaken} (hmem : taken ∈ c'.shared.2)
    {call' : SendCall} (hk' : c'.task taken.call = .send call') :
    call'.WaitsOn taken.token c'.shared.1.instances ∧
      (call'.pc = .returned (.error .disconnected) → call'.session = some taken.token) := by
  obtain ⟨hfire, hlog⟩ := Pool.fire_recording hf
  obtain ⟨hs, hother⟩ := fire_call hfire
  change (c.task me).step me c.shared.1 i = some (c'.shared.1, c'.task me) at hs
  change ∀ t, t ≠ me → c'.task t = c.task t at hother
  rw [hlog] at hmem
  rcases List.mem_append.mp hmem with hnew | hold
  · -- the removal takes the waiter of a call that has not returned
    obtain ⟨corr, rest, kind, hme, hl⟩ := noteRemoval_eq_some (Option.mem_toList.mp hnew)
    rcases MapCall.send_before hs hother hk' with ⟨-, hk⟩ | ⟨-, call, hcall, -⟩
    · obtain ⟨call₀, hk₀, -, hcorr⟩ := inv.apart.linked.registered corr kind taken.call hl
      obtain rfl : call' = call₀ := by simpa using hk.symm.trans hk₀
      have hwaits : call'.WaitsOn taken.token c.shared.1.instances :=
        inv.apart.listed me taken.id taken.token _ taken.call call' hme hk
          (.inr (by rw [show c.erase.task me = _ from hme]; exact decide_eq_true hcorr.symm))
      refine ⟨hwaits.fire (c := c.erase) guard hfire hk hk', fun hpc => ?_⟩
      have hstored : (slotOf c.erase taken.call call').waiter = true :=
        Option.isSome_iff_exists.mpr ⟨_, hcorr ▸ hl⟩
      have hnot := ((inv.apart.core taken.call call' hk).stored hstored).2.2
      rw [show (slotOf c.erase taken.call call').pc = _ from hpc] at hnot
      cases hnot
    · rw [hme] at hcall
      cases hcall
  · rcases MapCall.send_before hs hother hk' with ⟨-, hk⟩ | ⟨hkm, call, hcall, hp⟩
    · obtain ⟨hwaits, hreturned⟩ := inv.taken taken hold call' hk
      exact ⟨hwaits.fire (c := c.erase) guard hfire hk hk', hreturned⟩
    · rw [← hkm] at hcall
      obtain ⟨hwaits, -⟩ := inv.taken taken hold call hcall
      refine ⟨hwaits.fire (c := c.erase) guard hfire hcall hk', fun hpc => ?_⟩
      obtain ⟨hsession, deadline, hawait⟩ := SendCall.step_disconnected hp
        (fun err => inv.errors taken.call call err hcall) hpc
      exact hsession.trans (hwaits.waiting deadline hawait)

/-- A step under the condition keeps the invariant. -/
theorem step (inv : RemovalInv c) (guard : KeepsApart c.erase me i)
    (hf : removalHistory.fire c me i = some c') : RemovalInv c' := by
  obtain ⟨hfire, -⟩ := Pool.fire_recording hf
  refine ⟨inv.apart.step guard hfire, fun k call' err hk' hpc => ?_,
    fun taken hmem call' hk' => inv.step_taken guard hf hmem hk'⟩
  obtain ⟨hs, hother⟩ := fire_call hfire
  rcases MapCall.send_before hs hother hk' with ⟨-, hk⟩ | ⟨rfl, call, hcall, hp⟩
  · exact inv.errors k call' err hk hpc
  · exact SendCall.step_errors hp (fun err => inv.errors k call err hcall) hpc

theorem of_boot {c : Config Host MapCall} (boot : MapBoot c) (distinct : DistinctCorrs c) :
    RemovalInv (c.withLog []) where
  apart := .of_boot boot distinct
  errors k call err hk hpc := by
    have hfresh := boot.fresh k
    rw [show c.task k = _ from hk] at hfresh
    rw [hfresh] at hpc
    rcases hpc with hpc | hpc <;> cases hpc
  taken _ hmem := absurd hmem List.not_mem_nil

theorem of_reach {c₀ : Config Host MapCall} (boot : MapBoot c₀) (distinct : DistinctCorrs c₀)
    (run : removalHistory.Reach (fun c => KeepsApart c.erase) (c₀.withLog []) c) : RemovalInv c :=
  run.invariant (of_boot boot distinct) fun _ _ _ _ inv guard hf => inv.step guard hf

end RemovalInv

/-- **Removal.** In every run of calls with distinct corrs in which no session is inserted while
a waiter of its id is registered, and no waiter is registered for a connected id between the
two halves of a removal, removals fail calls of their own sessions only. -/
theorem removalsOwn_of_keepsApart {c₀ : Config Host MapCall}
    {c : Config (Host × List WaiterTaken) MapCall} (boot : MapBoot c₀)
    (distinct : DistinctCorrs c₀)
    (run : removalHistory.Reach (fun c => KeepsApart c.erase) (c₀.withLog []) c) :
    RemovalsOwn c := by
  have inv := RemovalInv.of_reach boot distinct run
  intro taken hmem call hk hpc
  exact (inv.taken taken hmem call hk).2 hpc

/-! ## Runs -/

/-- The stream of `a` ends after its request was queued: insert, request, removal. -/
def requestThenRemoval : Config Host MapCall :=
  newMapWith [.insert { instanceId := "a" } 128 128, .removeIf "a" 1 (some .entry),
    .insert { instanceId := "a" } 128 128,
    .send { instanceId := "a", msg := { corr := 1 }, timeout := 1, kind := .inputAck }]

theorem mapBoot_requestThenRemoval : MapBoot requestThenRemoval :=
  mapBoot_newMapWith (by simp [MapCall.Fresh])

theorem requestThenRemoval_idle (t : Nat) (ht : 4 ≤ t) :
    requestThenRemoval.task t = .environment := by
  obtain ⟨t, rfl⟩ := Nat.exists_eq_add_of_le' ht
  rfl

theorem distinctCorrs_requestThenRemoval : DistinctCorrs requestThenRemoval :=
  distinctCorrs_newMapWith (by decide)

/-- The condition for the first `n` tasks. -/
def KeepsApartBelow (n : Nat) : Pool.Guard (Host × List WaiterTaken) MapCall Choice :=
  fun c me _ => ∀ k < n, (c.task me).fallsInto c.shared.1.instances (c.task k) = false

instance (n : Nat) (c : Config (Host × List WaiterTaken) MapCall) (me : Nat) (i : Choice) :
    Decidable (KeepsApartBelow n c me i) :=
  inferInstanceAs (Decidable (∀ k < n, _ = false))

/-- The environment has no waiter and removes nothing. -/
theorem keepsApart_of_below {n : Nat} {c₀ : Config Host MapCall}
    {c : Config (Host × List WaiterTaken) MapCall} (idle : ∀ t, n ≤ t → c₀.task t = .environment)
    (run : removalHistory.Reach (KeepsApartBelow n) (c₀.withLog []) c) :
    removalHistory.Reach (fun c => KeepsApart c.erase) (c₀.withLog []) c := by
  have hstep : ∀ (c : Config (Host × List WaiterTaken) MapCall) me i c',
      (∀ t, n ≤ t → c.task t = .environment) → removalHistory.fire c me i = some c' →
        ∀ t, n ≤ t → c'.task t = .environment := by
    intro c me i c' henv hf t ht
    exact fire_call_environment (Pool.fire_recording hf).1 (henv t ht)
  refine run.strengthen ?_ hstep ?_
  · exact idle
  · intro c me i henv guard k
    by_cases hk : k < n
    · exact guard k hk
    · change (c.task me).fallsInto c.shared.1.instances (c.task k) = false
      rw [henv k (Nat.le_of_not_gt hk)]
      cases c.task me <;> simp [MapCall.fallsInto, MapCall.registeredFor, MapCall.collects]

/-- The call queues its request on session `1`, whose removal fails it; then `a` connects again. -/
theorem removalsOwn_ended :
    ∃ c, removalHistory.Reach (fun c => KeepsApart c.erase) (requestThenRemoval.withLog []) c ∧
      c.task 3 = .send ⟨"a", { corr := 1 }, 1, .inputAck, .returned (.error .disconnected), some 1,
        none⟩ ∧ ⟨3, "a", 1⟩ ∈ c.shared.2 ∧ c.shared.1.instances.tokenOf "a" = some 2 ∧
      RemovalsOwn c := by
  obtain ⟨c, run, hcall, hmem, htoken⟩ := removalHistory.exists_reach (KeepsApartBelow 4)
    (requestThenRemoval.withLog [])
    [(0, .run), (0, .run), (3, .run), (3, .run), (3, .run), (3, .run), (1, .run), (2, .run),
      (1, .run), (1, .pick 1), (2, .run), (1, .run), (3, .run)]
    (fun c => c.task 3 = .send ⟨"a", { corr := 1 }, 1, .inputAck,
      .returned (.error .disconnected), some 1, none⟩ ∧ ⟨3, "a", 1⟩ ∈ c.shared.2 ∧
      c.shared.1.instances.tokenOf "a" = some 2) (by decide +kernel)
  replace run := keepsApart_of_below requestThenRemoval_idle run
  exact ⟨c, run, hcall, hmem, htoken, removalsOwn_of_keepsApart mapBoot_requestThenRemoval
    distinctCorrs_requestThenRemoval run⟩

/-- The reconnect and the request fall between the removal of the entry and the search
for its waiters: the removal of session `1` fails the request on session `2`. -/
theorem not_removalsOwn_successor :
    ¬ ∀ c₀ c, MapBoot c₀ → DistinctCorrs c₀ →
      removalHistory.Reach Pool.anyStep (c₀.withLog []) c → RemovalsOwn c := by
  intro hall
  obtain ⟨c, run, hcall, hmem⟩ := removalHistory.exists_reach Pool.anyStep
    (requestThenRemoval.withLog [])
    [(0, .run), (0, .run), (1, .run), (2, .run), (2, .run), (3, .run), (3, .run), (3, .run),
      (3, .run), (1, .run), (1, .pick 1), (1, .run), (3, .run)]
    (fun c => c.task 3 = .send ⟨"a", { corr := 1 }, 1, .inputAck,
        .returned (.error .disconnected), some 2, none⟩ ∧ ⟨3, "a", 1⟩ ∈ c.shared.2)
    (by decide +kernel)
  have hsession := hall _ c mapBoot_requestThenRemoval distinctCorrs_requestThenRemoval run _ hmem _
    hcall rfl
  exact absurd hsession (by decide)

end CsmProxy
