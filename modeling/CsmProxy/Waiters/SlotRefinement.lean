import CsmProxy.Foundations.History
import CsmProxy.Waiters.Slot
import CsmProxy.Waiters.Steps

/-!
# The waiters of the map

`slotOf c k call` is the waiter of the call of task `k`, read off the two tables, the
oneshot channel and the tasks. While the corrs of the calls differ, each section is a
step of every waiter (`slot_step`).
-/

namespace CsmProxy

open Foundations

/-- The event that a section of a call of the map is. -/
def noteWaiter : Note Host MapCall Choice WaiterEvent := fun me h c _ =>
  match c with
  | .send call =>
    match call.pc with
    | .insertWaiter => some (.registered me)
    | .trySend =>
      match h.instances.trySend call.instanceId call.msg with
      | .ok _ => some (.queued me)
      | .error _ => none
    | .await _ => if h.oneshot me = .waiting then some (.timedOut me) else none
    | _ => none
  | .push _ msg (some .complete) => some (.pushed me msg)
  | .push _ _ (some (.reply tx)) => some (.handed me tx)
  | _ => none

/-- Only its own call queues a request. -/
theorem noteWaiter_queued {me k : Nat} {h : Host} {c : MapCall} {i : Choice}
    (hn : noteWaiter me h c i = some (.queued k)) :
    k = me ∧ ∃ call, c = .send call ∧ call.pc = .trySend := by
  unfold noteWaiter at hn
  split at hn
  · rename_i call
    split at hn
    · cases hn
    · rename_i hpc
      split at hn <;> cases hn
      exact ⟨rfl, call, rfl, hpc⟩
    · split at hn <;> cases hn
    · cases hn
  · cases hn
  · cases hn
  · cases hn

namespace MapCall

/-- What the call does with the sender of the call of task `k`. -/
def grip (k : Nat) : MapCall → Grip
  | .push _ msg (some (.forget tx)) => if tx = k then .taken msg else .free
  | .push _ msg (some (.reply tx)) => if tx = k then .forgotten msg else .free
  | _ => .free

/-- The call is a removal that still has to take `corr`. -/
def lists (corr : UInt64) : MapCall → Bool
  | .removeIf _ _ (some (.next rest)) | .removeIf _ _ (some (.take _ rest)) => corr ∈ rest
  | _ => false

/-- The call is a removal that takes `corr`, after its second table. -/
def takes (corr : UInt64) : MapCall → Bool
  | .removeIf _ _ (some (.take corr' _)) => corr' = corr
  | _ => false

end MapCall

/-- The envelope completes the waiter of the call. -/
def SendCall.answers (call : SendCall) (msg : SimToServer) : Bool :=
  msg.corr ≠ 0 && msg.corr = call.msg.corr && InstanceMap.waiterMatches call.kind msg

theorem SendCall.answers_iff {call : SendCall} {msg : SimToServer} :
    call.answers msg = true ↔ msg.corr ≠ 0 ∧ msg.corr = call.msg.corr ∧
      InstanceMap.waiterMatches call.kind msg = true := by
  simp [answers, and_assoc]

/-- The waiter of the call of task `k`. -/
def slotOf (c : Config Host MapCall) (k : Nat) (call : SendCall) : Slot where
  pc := call.pc
  waiter := (c.shared.instances.waiters.lookup call.msg.corr).isSome
  recorded := (c.shared.instances.waiterInstance.lookup call.msg.corr).isSome
  oneshot := c.shared.oneshot k
  grip := MapCall.grip k ∘ c.task
  listed := MapCall.lists call.msg.corr ∘ c.task
  taking := MapCall.takes call.msg.corr ∘ c.task

/-! ## Whose the entries are -/

/-- The calls of a configuration have pairwise distinct corrs. -/
def DistinctCorrs (c : Config Host MapCall) : Prop :=
  ∀ k k' call call', c.task k = .send call → c.task k' = .send call' →
    call.msg.corr = call'.msg.corr → k = k'

/-- The corr of a waiting call. -/
def MapCall.corr (c : MapCall) : Option UInt64 := c.sending.map fun call => call.msg.corr

theorem distinctCorrs_newMapWith {calls : List MapCall}
    (h : ∀ k < calls.length, ∀ k' < calls.length, (calls.getD k .environment).corr.isSome = true →
      (calls.getD k .environment).corr = (calls.getD k' .environment).corr → k = k') :
    DistinctCorrs (newMapWith calls) := by
  have hlt : ∀ k call, (newMapWith calls).task k = .send call → k < calls.length := by
    intro k call hk
    by_contra hge
    change calls.getD k .environment = _ at hk
    rw [List.getD_eq_getElem?_getD, List.getElem?_eq_none (Nat.le_of_not_gt hge)] at hk
    cases hk
  intro k k' call call' hk hk' hcorr
  have hc : (calls.getD k .environment).corr = some call.msg.corr := congrArg MapCall.corr hk
  have hc' : (calls.getD k' .environment).corr = some call'.msg.corr := congrArg MapCall.corr hk'
  refine h k (hlt k call hk) k' (hlt k' call' hk') ?_ ?_
  · rw [hc]
    rfl
  · rw [hc, hc', hcorr]

/-- The entries of the tables belong to calls, and the corrs of the calls differ. -/
structure Linked (c : Config Host MapCall) : Prop where
  registered : ∀ corr kind tx, c.shared.instances.waiters.lookup corr = some (kind, tx) →
    ∃ call, c.task tx = .send call ∧ call.kind = kind ∧ call.msg.corr = corr
  recorded : ∀ corr id, c.shared.instances.waiterInstance.lookup corr = some id →
    ∃ k call, c.task k = .send call ∧ call.msg.corr = corr
  held : ∀ p id msg pc tx, c.task p = .push id msg (some pc) → pc.holds = some tx →
    ∃ call, c.task tx = .send call ∧ call.msg.corr = msg.corr
  distinct : DistinctCorrs c

/-! ## What a section does to the tables -/

theorem SendCall.step_records {me : Nat} {h h' : Host} {c c' : SendCall} {i : Choice}
    (hs : c.step me h i = some (h', c')) {corr : UInt64} (hne : corr ≠ c.msg.corr) :
    h'.instances.waiters.lookup corr = h.instances.waiters.lookup corr ∧
      h'.instances.waiterInstance.lookup corr = h.instances.waiterInstance.lookup corr := by
  cases step_section hs with
  | insertWaiter hpc =>
    rw [Host.dropSender_instances]
    refine ⟨?_, rfl⟩
    change Finmap.lookup corr (h.instances.waiters.insert c.msg.corr (c.kind, me)) = _
    rw [HashMap.lookup_insert_ite, if_neg hne]
  | insertInstance hpc =>
    refine ⟨rfl, ?_⟩
    change Finmap.lookup corr (h.instances.waiterInstance.insert c.msg.corr c.instanceId) = _
    rw [HashMap.lookup_insert_ite, if_neg hne]
  | queued hpc hsend =>
    obtain ⟨hw, hi, -⟩ := InstanceMap.trySend_frame hsend
    exact ⟨congrArg _ hw, congrArg _ hi⟩
  | forget hpc =>
    refine ⟨rfl, ?_⟩
    change Finmap.lookup corr (h.instances.waiterInstance.erase c.msg.corr) = _
    rw [HashMap.lookup_erase_ite, if_neg hne]
  | take hpc =>
    rw [Host.dropSender_instances]
    refine ⟨?_, rfl⟩
    change Finmap.lookup corr (h.instances.waiters.erase c.msg.corr) = _
    rw [HashMap.lookup_erase_ite, if_neg hne]
  | _ => exact ⟨rfl, rfl⟩

/-- A call settles no channel but those stored under its own corr. -/
theorem SendCall.step_oneshot {me : Nat} {h h' : Host} {c c' : SendCall} {i : Choice}
    (hs : c.step me h i = some (h', c')) {k : Nat}
    (hother : ∀ kind, h.instances.waiters.lookup c.msg.corr ≠ some (kind, k)) :
    h'.oneshot k = h.oneshot k := by
  have hdrop : (h.instances.waiters.lookup c.msg.corr).map Prod.snd ≠ some k := by
    intro hk
    obtain ⟨⟨kind', k'⟩, hl, rfl⟩ := Option.map_eq_some_iff.mp hk
    exact hother kind' hl
  cases step_section hs with
  | insertWaiter hpc | take hpc =>
    rw [Host.dropSender_oneshot]
    exact if_neg hdrop
  | _ => rfl

/-- A call records the instance it is for, under its own corr. -/
theorem SendCall.step_recorded {me : Nat} {h h' : Host} {c c' : SendCall} {i : Choice}
    (hs : c.step me h i = some (h', c')) {corr : UInt64} {id : String}
    (hl : h'.instances.waiterInstance.lookup corr = some id) :
    h.instances.waiterInstance.lookup corr = some id ∨
      (c.msg.corr = corr ∧ c.instanceId = id ∧ c.pc = .insertInstance) := by
  cases step_section hs with
  | insertInstance hpc =>
    change Finmap.lookup corr (h.instances.waiterInstance.insert c.msg.corr c.instanceId) = _ at hl
    rw [HashMap.lookup_insert_ite] at hl
    split at hl
    · rename_i hcorr
      exact .inr ⟨hcorr.symm, Option.some.inj hl, hpc⟩
    · exact .inl hl
  | queued hpc hsend =>
    obtain ⟨-, hi, -⟩ := InstanceMap.trySend_frame hsend
    exact .inl ((congrArg _ hi).symm.trans hl)
  | forget hpc => exact .inl (HashMap.of_lookup_erase hl)
  | insertWaiter hpc | take hpc =>
    rw [Host.dropSender_instances] at hl
    exact .inl hl
  | _ => exact .inl hl

/-- Only the call that a corr belongs to records an instance for it. -/
theorem MapCall.step_recorded {me : Nat} {h h' : Host} {c c' : MapCall} {i : Choice}
    (hs : c.step me h i = some (h', c')) {corr : UInt64} {id : String}
    (hl : h'.instances.waiterInstance.lookup corr = some id) :
    h.instances.waiterInstance.lookup corr = some id ∨
      ∃ call, c = .send call ∧ call.msg.corr = corr ∧ call.instanceId = id ∧
        call.pc = .insertInstance := by
  cases c with
  | send call =>
    obtain ⟨call', -, hp⟩ := step_send hs
    exact (SendCall.step_recorded hp hl).imp_right fun hnew => ⟨call, rfl, hnew⟩
  | push id' msg pc =>
    obtain ⟨pc₀, -, -, rfl, -⟩ := step_push hs
    refine .inl ?_
    cases pc₀ with
    | complete =>
      rw [← (h.instances.takeMatching_frame msg).2.2]
      exact hl
    | forget tx => exact HashMap.of_lookup_erase hl
    | reply tx | enqueue => exact hl
  | removeIf id' token pc =>
    refine .inl ?_
    cases pc with
    | none => cases hs
    | some pc =>
      obtain ⟨⟨g, out⟩, hp, he⟩ := Option.map_eq_some_iff.mp hs
      cases he
      cases RemovePc.step_section hp with
      | entry =>
        rw [← (InstanceMap.removeEntry_frame h.instances id' token).2]
        exact hl
      | collect | done => exact hl
      | pick => exact HashMap.of_lookup_erase hl
      | take =>
        rw [Host.dropSender_instances] at hl
        exact hl
  | update u returned =>
    cases returned <;> cases i <;> cases hs
    rw [← (u.apply_frame h.instances).2.1]
    exact .inl hl
  | environment =>
    obtain ⟨g, hp, he⟩ := Option.map_eq_some_iff.mp hs
    cases he
    rw [← (environmentStep_frame hp).1.waiterInstance]
    exact .inl hl
  | _ => cases i <;> cases hs <;> exact .inl hl

namespace Linked

variable {c c' : Config Host MapCall} {me : Nat} {i : Choice}

theorem of_boot (boot : MapBoot c) (distinct : DistinctCorrs c) : Linked c := by
  obtain ⟨default, config, now, hshared⟩ := boot.shared
  refine ⟨?_, ?_, ?_, distinct⟩
  · intro corr kind tx hl
    rw [hshared] at hl
    exact absurd (hl.symm.trans (HashMap.lookup_empty corr)) (by simp)
  · intro corr id hl
    rw [hshared] at hl
    exact absurd (hl.symm.trans (HashMap.lookup_empty corr)) (by simp)
  · intro p id msg pc tx hp htx
    have hfresh := boot.fresh p
    rw [hp] at hfresh
    obtain rfl := Option.some.inj hfresh
    cases htx

/-- A waiting call was one before the step, with the same corr. -/
theorem call_before (hf : mapCalls.fire c me i = some c') {k : Nat} {call' : SendCall}
    (hk : c'.task k = .send call') :
    ∃ call, c.task k = .send call ∧ call'.msg = call.msg := by
  obtain ⟨hs, hother⟩ := fire_call hf
  rcases MapCall.send_before hs hother hk with ⟨-, hk'⟩ | ⟨rfl, call, hcall, hp⟩
  · exact ⟨call', hk', rfl⟩
  · exact ⟨call, hcall, (SendCall.step_args hp).2.1⟩

theorem step (linked : Linked c) (hf : mapCalls.fire c me i = some c') : Linked c' := by
  refine ⟨?_, ?_, ?_, ?_⟩
  · intro corr kind tx hl
    exact fire_registered hf linked.registered hl
  · intro corr id hl
    have hcall : ∃ k call, c.task k = .send call ∧ call.msg.corr = corr := by
      rcases MapCall.step_recorded (fire_call hf).1 hl with hold | ⟨call, hme, hcorr, -⟩
      · exact linked.recorded corr id hold
      · exact ⟨me, call, hme, hcorr⟩
    obtain ⟨k, call, hk, rfl⟩ := hcall
    obtain ⟨call', hk', -, hmsg, -⟩ := fire_send hf hk
    exact ⟨k, call', hk', congrArg ServerToSim.corr hmsg⟩
  · intro p id msg pc tx hp htx
    have hcall : ∃ call, c.task tx = .send call ∧ call.msg.corr = msg.corr := by
      obtain ⟨pc₀, hpush, hold | ⟨-, -, -, kind, hl, -⟩⟩ := fire_holds hf hp htx
      · exact linked.held p id msg pc₀ tx hpush hold
      · obtain ⟨call, hcall, -, hcorr⟩ := linked.registered _ _ _ hl
        exact ⟨call, hcall, hcorr⟩
    obtain ⟨call, hcall, hcorr⟩ := hcall
    obtain ⟨call', hcall', -, hmsg, -⟩ := fire_send hf hcall
    exact ⟨call', hcall', (congrArg ServerToSim.corr hmsg).trans hcorr⟩
  · intro k k' call call' hk hk' hcorr
    obtain ⟨call₀, hk₀, hmsg⟩ := call_before hf hk
    obtain ⟨call₀', hk₀', hmsg'⟩ := call_before hf hk'
    rw [hmsg, hmsg'] at hcorr
    exact linked.distinct k k' call₀ call₀' hk₀ hk₀' hcorr

/-- The waiter under the corr of a call is the call's own. -/
theorem owner (linked : Linked c) {k : Nat} {call : SendCall} (hk : c.task k = .send call)
    {kind : WaitKind} {tx : Nat}
    (hl : c.shared.instances.waiters.lookup call.msg.corr = some (kind, tx)) :
    kind = call.kind ∧ tx = k := by
  obtain ⟨call', htx, rfl, hcorr⟩ := linked.registered _ _ _ hl
  obtain rfl := linked.distinct tx k call' call htx hk hcorr
  obtain rfl : call' = call := by simpa using htx.symm.trans hk
  exact ⟨rfl, rfl⟩

/-- The sender stored under another corr is not the call's. -/
theorem not_owner (linked : Linked c) {k : Nat} {call : SendCall} (hk : c.task k = .send call)
    {corr : UInt64} (hne : corr ≠ call.msg.corr) (kind : WaitKind) :
    c.shared.instances.waiters.lookup corr ≠ some (kind, k) := by
  intro hl
  obtain ⟨call', hk', -, rfl⟩ := linked.registered _ _ _ hl
  obtain rfl : call' = call := by simpa using hk'.symm.trans hk
  exact hne rfl

end Linked

/-! ## A section is a step of every waiter -/

section

variable {c : Config Host MapCall} {me k : Nat} {call call' : SendCall} {g : Host} {l : MapCall}

/-- The waiter of a call after a section of task `me`. -/
theorem slotOf_update (hcorr : call'.msg.corr = call.msg.corr) :
    slotOf ⟨g, Function.update c.task me l⟩ k call' =
      { pc := call'.pc
        waiter := (g.instances.waiters.lookup call.msg.corr).isSome
        recorded := (g.instances.waiterInstance.lookup call.msg.corr).isSome
        oneshot := g.oneshot k
        grip := Function.update (slotOf c k call).grip me (l.grip k)
        listed := Function.update (slotOf c k call).listed me (l.lists call.msg.corr)
        taking := Function.update (slotOf c k call).taking me (l.takes call.msg.corr) } := by
  simp only [slotOf, Function.comp_update]
  rw [hcorr]

/-- The same when the task does nothing to the sender. -/
theorem slotOf_move (hcorr : call'.msg.corr = call.msg.corr)
    (hgrip : l.grip k = (c.task me).grip k)
    (hlists : l.lists call.msg.corr = (c.task me).lists call.msg.corr)
    (htakes : l.takes call.msg.corr = (c.task me).takes call.msg.corr) :
    slotOf ⟨g, Function.update c.task me l⟩ k call' =
      { slotOf c k call with
        pc := call'.pc
        waiter := (g.instances.waiters.lookup call.msg.corr).isSome
        recorded := (g.instances.waiterInstance.lookup call.msg.corr).isSome
        oneshot := g.oneshot k } := by
  have hg : Function.update (slotOf c k call).grip me (l.grip k) = (slotOf c k call).grip := by
    rw [hgrip]
    exact Function.update_eq_self ..
  have hl : Function.update (slotOf c k call).listed me (l.lists call.msg.corr) =
      (slotOf c k call).listed := by
    rw [hlists]
    exact Function.update_eq_self ..
  have ht : Function.update (slotOf c k call).taking me (l.takes call.msg.corr) =
      (slotOf c k call).taking := by
    rw [htakes]
    exact Function.update_eq_self ..
  rw [slotOf_update hcorr, hg, hl, ht]

/-- The section leaves the waiter alone. -/
theorem slotOf_idle
    (hw : g.instances.waiters.lookup call.msg.corr =
      c.shared.instances.waiters.lookup call.msg.corr)
    (hr : g.instances.waiterInstance.lookup call.msg.corr =
      c.shared.instances.waiterInstance.lookup call.msg.corr)
    (ho : g.oneshot k = c.shared.oneshot k) (hgrip : l.grip k = (c.task me).grip k)
    (hlists : l.lists call.msg.corr = (c.task me).lists call.msg.corr)
    (htakes : l.takes call.msg.corr = (c.task me).takes call.msg.corr) :
    slotOf ⟨g, Function.update c.task me l⟩ k call = slotOf c k call := by
  rw [slotOf_move rfl hgrip hlists htakes, hw, hr, ho]
  rfl

end

/-- What happens to the channel of a call when the sender under its corr is dropped. -/
theorem Linked.dropSender_own {c : Config Host MapCall} (linked : Linked c) {k : Nat}
    {call : SendCall} (hk : c.task k = .send call) {m : InstanceMap} :
    (({ c.shared with instances := m } : Host).dropSender
        ((c.shared.instances.waiters.lookup call.msg.corr).map Prod.snd)).oneshot k =
      if (slotOf c k call).waiter then .dropped else (slotOf c k call).oneshot := by
  rw [Host.dropSender_oneshot]
  change _ = if (c.shared.instances.waiters.lookup call.msg.corr).isSome then _ else _
  cases hl : c.shared.instances.waiters.lookup call.msg.corr with
  | none => rfl
  | some waiter =>
    obtain ⟨kind, tx⟩ := waiter
    obtain ⟨-, rfl⟩ := linked.owner hk hl
    simp

/-- A section of a call is a step of its own waiter. -/
theorem Linked.step_own {c : Config Host MapCall} (linked : Linked c) {k : Nat} {h' : Host}
    {call call' : SendCall} {i : Choice} (hk : c.task k = .send call)
    (hs : call.step k c.shared i = some (h', call')) :
    Slot.Step k call.answers (noteWaiter k c.shared (.send call) i) (slotOf c k call)
      (slotOf ⟨h', Function.update c.task k (.send call')⟩ k call') := by
  have hargs := SendCall.step_args hs
  rw [slotOf_move (congrArg ServerToSim.corr hargs.2.1) (by rw [hk]; rfl) (by rw [hk]; rfl)
    (by rw [hk]; rfl)]
  clear hargs
  have hdrop := fun m => linked.dropSender_own hk (m := m)
  obtain ⟨id, msg, timeout, kind, pc, session, via⟩ := call
  cases i with
  | run =>
    cases pc with
    | get =>
      cases hs
      dsimp only
      split
      · exact .connected rfl
      · exact .unknown rfl
    | insertWaiter =>
      cases hs
      refine (Slot.Step.insertWaiter rfl).to (Slot.ext rfl ?_ ?_ (hdrop _) rfl rfl rfl)
      · rw [Host.dropSender_instances]
        change (Finmap.lookup msg.corr (c.shared.instances.waiters.insert msg.corr _)).isSome = true
        rw [HashMap.lookup_insert_ite, if_pos rfl]
        rfl
      · rw [Host.dropSender_instances]
        rfl
    | insertInstance =>
      cases hs
      refine (Slot.Step.insertInstance rfl).to (Slot.ext rfl rfl ?_ rfl rfl rfl rfl)
      change (Finmap.lookup msg.corr (c.shared.instances.waiterInstance.insert msg.corr _)).isSome =
        true
      rw [HashMap.lookup_insert_ite, if_pos rfl]
      rfl
    | trySend =>
      simp only [SendCall.step] at hs
      simp only [noteWaiter]
      split at hs
      · rename_i instances hsend
        cases hs
        obtain ⟨hw, hr, -⟩ := InstanceMap.trySend_frame hsend
        rw [hsend]
        refine (Slot.Step.sent _ rfl).to (Slot.ext rfl ?_ ?_ rfl rfl rfl rfl)
        · exact congrArg (fun m => (Finmap.lookup msg.corr m).isSome) hw
        · exact congrArg (fun m => (Finmap.lookup msg.corr m).isSome) hr
      · rename_i hsend
        cases hs
        rw [hsend]
        exact .refused rfl (.inl rfl)
      · rename_i hsend
        cases hs
        rw [hsend]
        exact .refused rfl (.inr rfl)
    | forget err =>
      cases hs
      refine (Slot.Step.forget rfl).to (Slot.ext rfl rfl ?_ rfl rfl rfl rfl)
      change (Finmap.lookup msg.corr (c.shared.instances.waiterInstance.erase msg.corr)).isSome =
        false
      rw [HashMap.lookup_erase_ite, if_pos rfl]
      rfl
    | take err =>
      cases hs
      refine (Slot.Step.take rfl).to (Slot.ext rfl ?_ ?_ (hdrop _) rfl rfl rfl)
      · rw [Host.dropSender_instances]
        change (Finmap.lookup msg.corr (c.shared.instances.waiters.erase msg.corr)).isSome = false
        rw [HashMap.lookup_erase_ite, if_pos rfl]
        rfl
      · rw [Host.dropSender_instances]
        rfl
    | await deadline =>
      simp only [SendCall.step] at hs
      simp only [noteWaiter]
      split at hs
      · rename_i ho
        cases hs
        rw [if_neg (by simp [ho])]
        exact .reply rfl ho
      · rename_i ho
        cases hs
        rw [if_neg (by simp [ho])]
        exact .lost rfl ho
      · rename_i ho
        split at hs
        · cases hs
          rw [if_pos ho]
          exact .timeout rfl ho
        · cases hs
    | returned result => cases hs
  | _ => cases pc <;> cases hs

/-- A section of another call is none of the waiter's. -/
theorem Linked.step_otherCall {c : Config Host MapCall} (linked : Linked c) {me k : Nat}
    {h' : Host} {call other other' : SendCall} {i : Choice} (hk : c.task k = .send call)
    (hme : c.task me = .send other) (hne : me ≠ k)
    (hs : other.step me c.shared i = some (h', other')) :
    Slot.Step k call.answers (noteWaiter me c.shared (.send other) i) (slotOf c k call)
      (slotOf ⟨h', Function.update c.task me (.send other')⟩ k call) := by
  have hcorr : other.msg.corr ≠ call.msg.corr :=
    fun heq => hne (linked.distinct me k other call hme hk heq)
  obtain ⟨hw, hr⟩ := SendCall.step_records hs (Ne.symm hcorr)
  have ho := SendCall.step_oneshot hs (linked.not_owner hk hcorr)
  refine .same ?_
    (slotOf_idle hw hr ho (by rw [hme]; rfl) (by rw [hme]; rfl) (by rw [hme]; rfl))
  unfold noteWaiter
  dsimp only
  split
  · exact hne
  · split
    · exact hne
    · trivial
  · split
    · exact hne
    · trivial
  · trivial

section Push

variable {c : Config Host MapCall} {me k : Nat} {call : SendCall} {id : String}
  {msg : SimToServer}

/-- The waiter of a call after a section of a push. -/
theorem slotOf_push {pc pc' : Option PushPc} {g : Host} (hme : c.task me = .push id msg pc) :
    slotOf ⟨g, Function.update c.task me (.push id msg pc')⟩ k call =
      { slotOf c k call with
        waiter := (g.instances.waiters.lookup call.msg.corr).isSome
        recorded := (g.instances.waiterInstance.lookup call.msg.corr).isSome
        oneshot := g.oneshot k
        grip := Function.update (slotOf c k call).grip me
          ((MapCall.push id msg pc').grip k) } := by
  have hlists : Function.update (slotOf c k call).listed me
      ((MapCall.push id msg pc').lists call.msg.corr) = (slotOf c k call).listed := by
    have hsame : (MapCall.push id msg pc').lists call.msg.corr =
        (c.task me).lists call.msg.corr := by rw [hme]; rfl
    rw [hsame]
    exact Function.update_eq_self ..
  have htakes : Function.update (slotOf c k call).taking me
      ((MapCall.push id msg pc').takes call.msg.corr) = (slotOf c k call).taking := by
    have hsame : (MapCall.push id msg pc').takes call.msg.corr =
        (c.task me).takes call.msg.corr := by rw [hme]; rfl
    rw [hsame]
    exact Function.update_eq_self ..
  rw [slotOf_update rfl, hlists, htakes]
  rfl

/-- The same when the push does not concern the waiter. -/
theorem slotOf_push_idle {pc pc' : Option PushPc} {g : Host} (hme : c.task me = .push id msg pc)
    (hw : g.instances.waiters.lookup call.msg.corr =
      c.shared.instances.waiters.lookup call.msg.corr)
    (hr : g.instances.waiterInstance.lookup call.msg.corr =
      c.shared.instances.waiterInstance.lookup call.msg.corr)
    (ho : g.oneshot k = c.shared.oneshot k)
    (hgrip : (MapCall.push id msg pc').grip k = (MapCall.push id msg pc).grip k) :
    slotOf ⟨g, Function.update c.task me (.push id msg pc')⟩ k call = slotOf c k call :=
  slotOf_idle hw hr ho (by rw [hme, hgrip]) (by rw [hme]; rfl) (by rw [hme]; rfl)

/-- `complete_waiter` takes the sender of the call, or leaves the waiter alone. -/
theorem Linked.step_complete (linked : Linked c) (hk : c.task k = .send call)
    (hme : c.task me = .push id msg (some .complete)) :
    Slot.Step k call.answers (some (.pushed me msg)) (slotOf c k call)
      (slotOf ⟨(PushPc.complete.step id msg c.shared).1, Function.update c.task me
        (.push id msg (PushPc.complete.step id msg c.shared).2)⟩ k call) := by
  have hfree : (slotOf c k call).grip me = .free := by
    change (c.task me).grip k = .free
    rw [hme]
    rfl
  have hlookup := c.shared.instances.lookup_takeMatching msg call.msg.corr
  have hr : (PushPc.complete.step id msg c.shared).1.instances.waiterInstance.lookup call.msg.corr =
      c.shared.instances.waiterInstance.lookup call.msg.corr :=
    congrArg _ (c.shared.instances.takeMatching_frame msg).2.2
  rw [PushPc.step_complete]
  cases htake : (c.shared.instances.takeMatching msg).1 with
  | none =>
    rw [htake, if_neg (by simp)] at hlookup
    refine .same (fun hans => ?_) (slotOf_push_idle hme hlookup hr rfl rfl)
    -- a waiter that the envelope answers would have been taken
    by_contra hstored
    obtain ⟨hcorr, heq, hm⟩ := SendCall.answers_iff.mp hans
    obtain ⟨⟨kind, tx⟩, hl⟩ := Option.isSome_iff_exists.mp (Bool.eq_true_of_not_eq_false hstored)
    obtain ⟨rfl, rfl⟩ := linked.owner hk hl
    rw [← heq] at hl
    rw [InstanceMap.takeMatching_of_lookup hcorr hl hm] at htake
    cases htake
  | some tx =>
    obtain ⟨hcorr, kind, hl, hm⟩ := InstanceMap.takeMatching_fst htake
    by_cases heq : msg.corr = call.msg.corr
    · rw [heq] at hl
      obtain ⟨rfl, rfl⟩ := linked.owner hk hl
      rw [htake, if_pos ⟨rfl, heq.symm⟩] at hlookup
      have hw : (slotOf c tx call).waiter = true := by
        change (Finmap.lookup call.msg.corr c.shared.instances.waiters).isSome = true
        rw [hl]
        rfl
      have hans := SendCall.answers_iff.mpr ⟨hcorr, heq, hm⟩
      rw [slotOf_push hme]
      refine (Slot.Step.complete hw hans hfree).to (Slot.ext rfl ?_ ?_ rfl ?_ rfl rfl)
      · exact congrArg Option.isSome hlookup
      · exact congrArg Option.isSome hr
      · simp only [Option.elim_some, MapCall.grip, if_true]
    · have hne : tx ≠ k := by
        rintro rfl
        exact linked.not_owner hk heq kind hl
      have hgrip : (MapCall.push id msg (some (.forget tx))).grip k = .free := if_neg hne
      rw [htake, if_neg (fun h => heq h.2.symm)] at hlookup
      refine .same (fun hans => ?_) (slotOf_push_idle hme hlookup hr rfl hgrip)
      exact absurd (SendCall.answers_iff.mp hans).2.1 heq

/-- A section of a push completes the waiter, finishes what it began, or does not concern
it. -/
theorem Linked.step_push (linked : Linked c) {pc : PushPc} {i : Choice}
    (hk : c.task k = .send call) (hme : c.task me = .push id msg (some pc)) :
    Slot.Step k call.answers (noteWaiter me c.shared (.push id msg (some pc)) i) (slotOf c k call)
      (slotOf ⟨(pc.step id msg c.shared).1,
        Function.update c.task me (.push id msg (pc.step id msg c.shared).2)⟩ k call) := by
  have hgrip : (slotOf c k call).grip me = (MapCall.push id msg (some pc)).grip k := by
    change (c.task me).grip k = _
    rw [hme]
  cases pc with
  | complete => exact linked.step_complete hk hme
  | forget tx =>
    obtain ⟨call', htx, hcorr⟩ := linked.held me id msg (.forget tx) tx hme rfl
    by_cases hne : tx = k
    · subst hne
      obtain rfl : call' = call := by simpa using htx.symm.trans hk
      rw [slotOf_push hme]
      refine (Slot.Step.delete (hgrip.trans (if_pos rfl))).to (Slot.ext rfl rfl ?_ rfl ?_ rfl rfl)
      · change (Finmap.lookup call'.msg.corr
          (c.shared.instances.waiterInstance.erase msg.corr)).isSome = false
        rw [HashMap.lookup_erase_ite, if_pos hcorr]
        rfl
      · simp only [PushPc.step, MapCall.grip, if_true]
    · have hcorr' : call.msg.corr ≠ msg.corr :=
        fun heq => hne (linked.distinct tx k call' call htx hk (hcorr.trans heq.symm))
      have hfree : (MapCall.push id msg (some (.reply tx))).grip k =
          (MapCall.push id msg (some (.forget tx))).grip k := by
        simp only [MapCall.grip, if_neg hne]
      refine .same trivial (slotOf_push_idle hme rfl ?_ rfl hfree)
      change Finmap.lookup call.msg.corr (c.shared.instances.waiterInstance.erase msg.corr) = _
      rw [HashMap.lookup_erase_ite, if_neg hcorr']
  | reply tx =>
    by_cases hne : tx = k
    · subst hne
      rw [slotOf_push hme]
      refine (Slot.Step.hand id (hgrip.trans (if_pos rfl))).to (Slot.ext rfl rfl rfl ?_ rfl rfl rfl)
      exact Function.update_self ..
    · have hfree : (MapCall.push id msg (some .enqueue)).grip k =
          (MapCall.push id msg (some (.reply tx))).grip k := by
        simp only [MapCall.grip, if_neg hne]
      refine .same hne (slotOf_push_idle hme rfl rfl ?_ hfree)
      exact Function.update_of_ne (Ne.symm hne) ..
  | enqueue => exact .same trivial (slotOf_push_idle hme rfl rfl rfl rfl)

end Push

section Removal

variable {c : Config Host MapCall} {me k : Nat} {call : SendCall} {id : String} {token : Nat}

/-- The waiter of a call after a section of a removal. -/
theorem slotOf_removal {pc pc' : Option RemovePc} {g : Host}
    (hme : c.task me = .removeIf id token pc) :
    slotOf ⟨g, Function.update c.task me (.removeIf id token pc')⟩ k call =
      { slotOf c k call with
        waiter := (g.instances.waiters.lookup call.msg.corr).isSome
        recorded := (g.instances.waiterInstance.lookup call.msg.corr).isSome
        oneshot := g.oneshot k
        listed := Function.update (slotOf c k call).listed me
          ((MapCall.removeIf id token pc').lists call.msg.corr)
        taking := Function.update (slotOf c k call).taking me
          ((MapCall.removeIf id token pc').takes call.msg.corr) } := by
  have hgrip : Function.update (slotOf c k call).grip me
      ((MapCall.removeIf id token pc').grip k) = (slotOf c k call).grip := by
    have hsame : (MapCall.removeIf id token pc').grip k = (c.task me).grip k := by rw [hme]; rfl
    rw [hsame]
    exact Function.update_eq_self ..
  rw [slotOf_update rfl, hgrip]
  rfl

/-- The same when the removal does not concern the waiter. -/
theorem slotOf_removal_idle {pc pc' : Option RemovePc} {g : Host}
    (hme : c.task me = .removeIf id token pc)
    (hw : g.instances.waiters.lookup call.msg.corr =
      c.shared.instances.waiters.lookup call.msg.corr)
    (hr : g.instances.waiterInstance.lookup call.msg.corr =
      c.shared.instances.waiterInstance.lookup call.msg.corr)
    (ho : g.oneshot k = c.shared.oneshot k)
    (hlists : (MapCall.removeIf id token pc').lists call.msg.corr =
      (MapCall.removeIf id token pc).lists call.msg.corr)
    (htakes : (MapCall.removeIf id token pc').takes call.msg.corr =
      (MapCall.removeIf id token pc).takes call.msg.corr) :
    slotOf ⟨g, Function.update c.task me (.removeIf id token pc')⟩ k call = slotOf c k call :=
  slotOf_idle hw hr ho (by rw [hme]; rfl) (by rw [hme, hlists]) (by rw [hme, htakes])

/-- A section of a removal lists the waiter, fails it, or does not concern it. -/
theorem Linked.step_removal (linked : Linked c) {pc : RemovePc} {g : Host} {out : Option RemovePc}
    {i : Choice} (hk : c.task k = .send call) (hme : c.task me = .removeIf id token (some pc))
    (hs : pc.step id token c.shared i = some (g, out)) :
    Slot.Step k call.answers none (slotOf c k call)
      (slotOf ⟨g, Function.update c.task me (.removeIf id token out)⟩ k call) := by
  have htaking : (slotOf c k call).taking me =
      (MapCall.removeIf id token (some pc)).takes call.msg.corr := by
    change (c.task me).takes call.msg.corr = _
    rw [hme]
  have hlisted : (slotOf c k call).listed me =
      (MapCall.removeIf id token (some pc)).lists call.msg.corr := by
    change (c.task me).lists call.msg.corr = _
    rw [hme]
  cases RemovePc.step_section hs with
  | entry =>
    obtain ⟨hw, hr⟩ := c.shared.instances.removeEntry_frame id token
    refine .same trivial (slotOf_removal_idle hme (congrArg _ hw) (congrArg _ hr) rfl ?_ ?_)
    · split <;> rfl
    · split <;> rfl
  | collect =>
    have htakes : Function.update (slotOf c k call).taking me false = (slotOf c k call).taking :=
      Function.update_eq_self_iff.mpr htaking.symm
    rw [slotOf_removal hme]
    by_cases hmem : call.msg.corr ∈ c.shared.instances.waitersOf id
    · have hr : (slotOf c k call).recorded = true := by
        change (Finmap.lookup call.msg.corr c.shared.instances.waiterInstance).isSome = true
        rw [InstanceMap.mem_waitersOf.mp hmem]
        rfl
      refine (Slot.Step.collect (r := me)).to (Slot.ext rfl rfl rfl rfl rfl ?_ htakes)
      rw [hr]
      simp only [MapCall.lists, decide_eq_true hmem]
    · refine (Slot.Step.skip (r := me)).to (Slot.ext rfl rfl rfl rfl rfl ?_ htakes)
      simp only [MapCall.lists, decide_eq_false hmem]
  | done =>
    refine .same trivial (slotOf_removal_idle hme rfl rfl rfl ?_ rfl)
    simp [MapCall.lists]
  | @pick corr rest hmem =>
    by_cases heq : corr = call.msg.corr
    · subst heq
      rw [slotOf_removal hme]
      refine (Slot.Step.pick (hlisted.trans (decide_eq_true hmem))).to
        (Slot.ext rfl rfl ?_ rfl rfl ?_ ?_)
      · change (Finmap.lookup call.msg.corr
          (c.shared.instances.waiterInstance.erase call.msg.corr)).isSome = false
        rw [HashMap.lookup_erase_ite, if_pos rfl]
        rfl
      · simp [MapCall.lists]
      · simp [MapCall.takes]
    · refine .same trivial (slotOf_removal_idle hme rfl ?_ rfl ?_ ?_)
      · change Finmap.lookup call.msg.corr (c.shared.instances.waiterInstance.erase corr) = _
        rw [HashMap.lookup_erase_ite, if_neg (Ne.symm heq)]
      · simp [MapCall.lists, Ne.symm heq]
      · simp [MapCall.takes, heq]
  | @take corr rest =>
    by_cases heq : corr = call.msg.corr
    · subst heq
      have hl : Function.update (slotOf c k call).listed me (decide (call.msg.corr ∈ rest)) =
          (slotOf c k call).listed := Function.update_eq_self_iff.mpr hlisted.symm
      rw [slotOf_removal hme]
      refine (Slot.Step.fail (htaking.trans (decide_eq_true rfl))).to
        (Slot.ext rfl ?_ ?_ (linked.dropSender_own hk) rfl hl rfl)
      · rw [Host.dropSender_instances]
        change (Finmap.lookup call.msg.corr
          (c.shared.instances.waiters.erase call.msg.corr)).isSome = false
        rw [HashMap.lookup_erase_ite, if_pos rfl]
        rfl
      · rw [Host.dropSender_instances]
        rfl
    · refine .same trivial (slotOf_removal_idle hme ?_ ?_ ?_ rfl ?_)
      · rw [Host.dropSender_instances]
        change Finmap.lookup call.msg.corr (c.shared.instances.waiters.erase corr) = _
        rw [HashMap.lookup_erase_ite, if_neg (Ne.symm heq)]
      · rw [Host.dropSender_instances]
        rfl
      · rw [Host.dropSender_oneshot]
        refine if_neg fun hk' => ?_
        obtain ⟨⟨kind, tx⟩, hl, rfl⟩ := Option.map_eq_some_iff.mp hk'
        exact linked.not_owner hk heq kind hl
      · simp [MapCall.takes, heq]

end Removal

/-- **Refinement.** While the corrs of the calls differ, a section is a step of the waiter
of every call. -/
theorem slot_step {c c' : Config Host MapCall} {me : Nat} {i : Choice} (linked : Linked c)
    (hf : mapCalls.fire c me i = some c') {k : Nat} {call : SendCall} (hk : c.task k = .send call) :
    ∃ call', c'.task k = .send call' ∧ call'.instanceId = call.instanceId ∧
      call'.msg = call.msg ∧ call'.kind = call.kind ∧
      Slot.Step k call.answers (noteWaiter me c.shared (c.task me) i) (slotOf c k call)
        (slotOf c' k call') := by
  obtain ⟨g, l, hs, rfl⟩ := Pool.fire_eq_some.mp hf
  change (c.task me).step me c.shared i = some (g, l) at hs
  by_cases hne : me = k
  · subst hne
    rw [hk] at hs
    obtain ⟨call', rfl, hp⟩ := MapCall.step_send hs
    obtain ⟨hid, hmsg, hkind⟩ := SendCall.step_args hp
    rw [hk]
    exact ⟨call', Function.update_self .., hid, hmsg, hkind, linked.step_own hk hp⟩
  · refine ⟨call, (Function.update_of_ne (Ne.symm hne) ..).trans hk, rfl, rfl, rfl, ?_⟩
    cases hme : c.task me with
    | send other =>
      rw [hme] at hs
      obtain ⟨other', rfl, hp⟩ := MapCall.step_send hs
      exact linked.step_otherCall hk hme hne hp
    | push id msg pc =>
      rw [hme] at hs
      obtain ⟨pc₀, rfl, -, rfl, rfl⟩ := MapCall.step_push hs
      exact linked.step_push hk hme
    | removeIf id token pc =>
      rw [hme] at hs
      cases pc with
      | none => cases hs
      | some pc =>
        obtain ⟨⟨g', out⟩, hp, he⟩ := Option.map_eq_some_iff.mp hs
        cases he
        exact linked.step_removal hk hme hp
    | update u returned =>
      rw [hme] at hs
      cases returned <;> cases i <;> cases hs
      obtain ⟨hw, hr, -⟩ := u.apply_frame c.shared.instances
      exact .same trivial (slotOf_idle (congrArg _ hw) (congrArg _ hr) rfl (by rw [hme]; rfl)
        (by rw [hme]; rfl) (by rw [hme]; rfl))
    | environment =>
      rw [hme] at hs
      obtain ⟨g', hp, he⟩ := Option.map_eq_some_iff.mp hs
      cases he
      have same := (environmentStep_frame hp).1
      exact .same trivial (slotOf_idle (congrArg _ same.waiters) (congrArg _ same.waiterInstance)
        (congrFun same.oneshot k) (by rw [hme]) (by rw [hme]) (by rw [hme]))
    | _ =>
      rw [hme] at hs
      cases i <;> cases hs <;> exact .same trivial
        (slotOf_idle rfl rfl rfl (by rw [hme]; rfl) (by rw [hme]; rfl) (by rw [hme]; rfl))

/-- No waiter is stored when no call has run. -/
theorem slotOf_boot {c : Config Host MapCall} (boot : MapBoot c) {k : Nat} {call : SendCall}
    (hk : c.task k = .send call) : slotOf c k call = .initial := by
  obtain ⟨default, config, now, hshared⟩ := boot.shared
  have hfresh := boot.fresh k
  rw [hk] at hfresh
  have hidle : ∀ t, (c.task t).grip k = .free ∧ (c.task t).lists call.msg.corr = false ∧
      (c.task t).takes call.msg.corr = false := by
    intro t
    have ht := boot.fresh t
    cases hl : c.task t with
    | push id msg pc =>
      rw [hl] at ht
      obtain rfl : pc = some .complete := ht
      exact ⟨rfl, rfl, rfl⟩
    | removeIf id token pc =>
      rw [hl] at ht
      obtain rfl : pc = some .entry := ht
      exact ⟨rfl, rfl, rfl⟩
    | _ => exact ⟨rfl, rfl, rfl⟩
  refine Slot.ext (congrArg SendCall.pc hfresh) ?_ ?_ ?_ ?_ ?_ ?_
  · change (Finmap.lookup call.msg.corr c.shared.instances.waiters).isSome = false
    rw [hshared]
    exact congrArg Option.isSome (HashMap.lookup_empty call.msg.corr)
  · change (Finmap.lookup call.msg.corr c.shared.instances.waiterInstance).isSome = false
    rw [hshared]
    exact congrArg Option.isSome (HashMap.lookup_empty call.msg.corr)
  · change c.shared.oneshot k = .waiting
    rw [hshared]
  · exact funext fun t => (hidle t).1
  · exact funext fun t => (hidle t).2.1
  · exact funext fun t => (hidle t).2.2

/-- What holds of the waiters in every run of calls with distinct corrs. -/
structure Sound (c : Config Host MapCall) : Prop where
  linked : Linked c
  core : ∀ k call, c.task k = .send call → (slotOf c k call).Core

namespace Sound

variable {c c' : Config Host MapCall} {me : Nat} {i : Choice}

theorem of_boot (boot : MapBoot c) (distinct : DistinctCorrs c) : Sound c where
  linked := .of_boot boot distinct
  core k call hk := by
    rw [slotOf_boot boot hk]
    exact .of_initial

/-- The waiter of a call after a step is the one before it, after one of its own steps. -/
theorem slot_before (sound : Sound c) (hf : mapCalls.fire c me i = some c') {k : Nat}
    {call' : SendCall} (hk' : c'.task k = .send call') :
    ∃ call, c.task k = .send call ∧ call'.instanceId = call.instanceId ∧
      call'.msg = call.msg ∧ call'.kind = call.kind ∧
      Slot.Step k call.answers (noteWaiter me c.shared (c.task me) i) (slotOf c k call)
        (slotOf c' k call') := by
  obtain ⟨call, hk, -⟩ := Linked.call_before hf hk'
  obtain ⟨call₁, hk₁, hstep⟩ := slot_step sound.linked hf hk
  obtain rfl : call₁ = call' := by simpa using hk₁.symm.trans hk'
  exact ⟨call, hk, hstep⟩

theorem step (sound : Sound c) (hf : mapCalls.fire c me i = some c') : Sound c' where
  linked := sound.linked.step hf
  core k call' hk' := by
    obtain ⟨call, hk, -, -, -, hstep⟩ := sound.slot_before hf hk'
    exact (sound.core k call hk).step hstep

end Sound

end CsmProxy
