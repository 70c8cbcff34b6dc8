import CsmProxy.Waiters.SlotRefinement

/-!
# The two tables of waiters

`register_waiter` stores the sender and then the instance, and `complete_waiter` deletes
them in the same order. A reply that arrives between the two inserts deletes an instance
that is not recorded yet; it is recorded afterwards and stays when the call has returned
(`not_tablesAgree_answeredEarly`).

As long as no request is put on the outbound queue with such a record, the tables agree
whenever no operation is part-way through (`tablesAgree_of_recordsLive`).
-/

namespace CsmProxy

open Foundations

/-! ## One waiter -/

theorem SendPc.not_registering_of_records {pc : SendPc} (h : pc.records = true) :
    pc.registering = false := by
  cases pc <;> first | rfl | cases h

namespace Slot

/-- Whoever deletes a record also deletes the waiter, and the other way round. -/
structure Recorded (s : Slot) : Prop where
  records : s.recorded = true → s.pc.records = true
  awaiting : s.recorded = true → (∃ deadline, s.pc = .await deadline) →
    s.waiter = true ∨ ∃ p msg, s.grip p = .taken msg
  removing : ∀ r, s.listed r = true ∨ s.taking r = true → s.pc.registering = false
  taking : ∀ r, s.taking r = true → s.recorded = false
  unrecorded : s.waiter = true → s.recorded = false → s.pc.records = true →
    ∃ r, s.taking r = true

/-- The record is live when the request is put on the outbound queue. -/
def RecordLive (k : Nat) (e : Option WaiterEvent) (s : Slot) : Prop :=
  e = some (.queued k) → s.recorded = true → s.waiter = true ∨ ∃ p msg, s.grip p = .taken msg

namespace Recorded

variable {k : Nat} {answers : SimToServer → Bool} {s s' : Slot}

theorem of_initial : initial.Recorded :=
  ⟨nofun, nofun, fun _ h => (by rcases h with h | h <;> cases h), nofun, nofun⟩

/-- The call moves on and the tables stay. -/
theorem move (rec : s.Recorded) (pc : SendPc)
    (hrecords : s.recorded = true → s.pc.records = true → pc.records = true)
    (hawait : s.recorded = true → (∃ deadline, pc = .await deadline) →
      s.waiter = true ∨ ∃ p msg, s.grip p = .taken msg)
    (hreg : pc.registering = true → s.pc.registering = true)
    (hback : s.waiter = true → s.recorded = false → pc.records = true → s.pc.records = true) :
    ({ s with pc := pc } : Slot).Recorded := by
  refine ⟨?_, hawait, ?_, rec.taking, ?_⟩
  · intro h
    exact hrecords h (rec.records h)
  · intro r hr
    have hnot := rec.removing r hr
    by_contra hc
    rw [hreg (Bool.eq_true_of_not_eq_false hc)] at hnot
    cases hnot
  · intro hw h hpc
    exact rec.unrecorded hw h (hback hw h hpc)

/-- A call whose channel is settled has no record left. -/
theorem not_recorded_of_settled (rec : s.Recorded) (core : s.Core) {deadline : Nat}
    (hpc : s.pc = .await deadline) (ho : s.oneshot ≠ .waiting) : s.recorded = false := by
  by_contra hr
  rcases rec.awaiting (Bool.eq_true_of_not_eq_false hr) ⟨deadline, hpc⟩ with hw | ⟨p, msg, hp⟩
  · exact ho (core.stored hw).1
  · exact ho (core.held p (by simp [hp])).2.1

/-- The second table has the waiter: a removal may list it from now on. -/
theorem insertInstance (rec : s.Recorded) (hpc : s.pc = .insertInstance) :
    ({ s with pc := .trySend, recorded := true } : Slot).Recorded := by
  refine ⟨fun _ => rfl, (fun _ ⟨_, h⟩ => nomatch h), fun _ _ => rfl, ?_, nofun⟩
  intro r hr
  have hnot := rec.removing r (.inr hr)
  rw [hpc] at hnot
  cases hnot

/-- A push that took the waiter deletes the record. -/
theorem delete (rec : s.Recorded) (core : s.Core) {p : Nat} {msg : SimToServer}
    (hp : s.grip p = .taken msg) :
    ({ s with recorded := false, grip := Function.update s.grip p (.forgotten msg) } :
      Slot).Recorded := by
  refine ⟨nofun, nofun, rec.removing, fun _ _ => rfl, ?_⟩
  intro hw
  rw [(core.held p (by simp [hp])).1] at hw
  cases hw

/-- A push sends its envelope, which it has deleted the record for. -/
theorem hand (rec : s.Recorded) (core : s.Core) {p : Nat} {via : String} {msg : SimToServer}
    (hp : s.grip p = .forgotten msg) :
    ({ s with
      oneshot := .sent via msg
      grip := Function.update s.grip p .free } : Slot).Recorded := by
  refine ⟨rec.records, ?_, rec.removing, rec.taking, rec.unrecorded⟩
  intro hr hawait
  rcases rec.awaiting hr hawait with hw | ⟨p', msg', hp'⟩
  · exact .inl hw
  · have honly := (core.held p (by simp [hp])).2.2 p' (by simp [hp'])
    rw [honly, hp] at hp'
    cases hp'

/-- A removal lists what is recorded. -/
theorem list (rec : s.Recorded) {r : Nat} {b : Bool} (hb : b = true → s.recorded = true) :
    ({ s with listed := Function.update s.listed r b } : Slot).Recorded := by
  refine ⟨rec.records, rec.awaiting, ?_, rec.taking, rec.unrecorded⟩
  intro r' hr'
  dsimp only at hr' ⊢
  by_cases heq : r' = r
  · subst heq
    rw [Function.update_self] at hr'
    rcases hr' with h | h
    · exact SendPc.not_registering_of_records (rec.records (hb h))
    · exact rec.removing r' (.inr h)
  · rw [Function.update_of_ne heq] at hr'
    exact rec.removing r' hr'

/-- A removal deletes a record and is about to take the waiter. -/
theorem pick (rec : s.Recorded) {r : Nat} (hr : s.listed r = true) :
    ({ s with
      recorded := false
      listed := Function.update s.listed r false
      taking := Function.update s.taking r true } : Slot).Recorded := by
  refine ⟨nofun, nofun, ?_, fun _ _ => rfl, fun _ _ _ => ⟨r, Function.update_self ..⟩⟩
  intro r' hr'
  dsimp only at hr' ⊢
  by_cases heq : r' = r
  · rw [heq] at hr'
    exact rec.removing r (.inl hr)
  · rw [Function.update_of_ne heq, Function.update_of_ne heq] at hr'
    exact rec.removing r' hr'

/-- A removal takes the waiter, whose record it has deleted. -/
theorem fail (rec : s.Recorded) {r : Nat} (hr : s.taking r = true) :
    ({ s.unregister with taking := Function.update s.taking r false } : Slot).Recorded := by
  have hold : ∀ r', Function.update s.taking r false r' = true → s.taking r' = true := by
    intro r' hr'
    by_cases heq : r' = r
    · rwa [heq]
    · rwa [Function.update_of_ne heq] at hr'
  refine ⟨rec.records, ?_, ?_, fun r' hr' => rec.taking r' (hold r' hr'), nofun⟩
  · intro hrecorded
    change s.recorded = true at hrecorded
    rw [rec.taking r hr] at hrecorded
    cases hrecorded
  · intro r' hr'
    exact rec.removing r' (hr'.imp_right (hold r'))

theorem step (rec : s.Recorded) (core : s.Core) {e : Option WaiterEvent}
    (hs : Step k answers e s s') (guard : RecordLive k e s) : s'.Recorded := by
  have absurdRecords : s.pc.records = false → s.recorded = true → False := by
    intro hpc h
    rw [rec.records h] at hpc
    cases hpc
  cases hs with
  | connected hpc =>
    refine rec.move _ (fun h _ => ?_) (fun _ ⟨_, h⟩ => nomatch h) (fun _ => by rw [hpc]; rfl) nofun
    exact (absurdRecords (by rw [hpc]; rfl) h).elim
  | unknown hpc =>
    refine rec.move _ (fun h _ => ?_) (fun _ ⟨_, h⟩ => nomatch h) nofun nofun
    exact (absurdRecords (by rw [hpc]; rfl) h).elim
  | insertWaiter hpc =>
    refine ⟨fun h => ?_, (fun _ ⟨_, h⟩ => nomatch h), fun r hr => ?_, rec.taking, nofun⟩
    · exact (absurdRecords (by rw [hpc]; rfl) h).elim
    · have hnot := rec.removing r hr
      rw [hpc] at hnot
      cases hnot
  | insertInstance hpc => exact rec.insertInstance hpc
  | sent deadline hpc =>
    exact rec.move _ (fun _ _ => rfl) (fun h _ => guard rfl h) nofun (fun _ _ _ => by rw [hpc]; rfl)
  | refused hpc _ =>
    exact rec.move _ (fun _ _ => rfl) (fun _ ⟨_, h⟩ => nomatch h) nofun
      (fun _ _ _ => by rw [hpc]; rfl)
  | forget hpc => exact ⟨nofun, nofun, fun _ _ => rfl, fun _ _ => rfl, nofun⟩
  | take hpc =>
    refine ⟨fun h => ?_, (fun _ ⟨_, h⟩ => nomatch h), fun _ _ => rfl, rec.taking, nofun⟩
    exact (absurdRecords (by rw [hpc]; rfl) h).elim
  | reply hpc ho =>
    have hr := rec.not_recorded_of_settled core hpc (by simp [ho])
    exact rec.move _ (fun h => by rw [hr] at h; cases h) (fun _ ⟨_, h⟩ => nomatch h) nofun nofun
  | lost hpc ho =>
    have hr := rec.not_recorded_of_settled core hpc (by simp [ho])
    exact rec.move _ (fun h => by rw [hr] at h; cases h) (fun _ ⟨_, h⟩ => nomatch h) nofun nofun
  | timeout hpc ho =>
    exact rec.move _ (fun _ _ => rfl) (fun _ ⟨_, h⟩ => nomatch h) nofun
      (fun _ _ _ => by rw [hpc]; rfl)
  | @complete _ p msg hw _ hp =>
    exact ⟨rec.records, fun _ _ => .inr ⟨p, msg, Function.update_self ..⟩, rec.removing,
      rec.taking, nofun⟩
  | delete hp => exact rec.delete core hp
  | hand via hp => exact rec.hand core hp
  | collect => exact rec.list id
  | skip => exact rec.list nofun
  | pick hr => exact rec.pick hr
  | fail hr => exact rec.fail hr
  | idle he => exact rec

/-- With nothing under way, the waiter is stored in both tables while its call waits for a
reply, and in neither otherwise. -/
theorem agree (rec : s.Recorded) (core : s.Core)
    (hrest : s.pc.waits = true → ∃ deadline, s.pc = .await deadline)
    (htake : ∀ err, s.pc ≠ .take err) (hgrip : ∀ p, s.grip p = .free)
    (htaking : ∀ r, s.taking r = false) :
    s.recorded = s.waiter ∧
      (s.waiter = true ↔ (∃ deadline, s.pc = .await deadline) ∧ s.oneshot = .waiting) := by
  have hwaits : s.waiter = true → s.pc.waits = true := by
    intro hw
    have hended := (core.stored hw).2.2
    have hfresh : s.pc.fresh ≠ true := fun h => by
      rw [(core.fresh h).1] at hw
      cases hw
    cases hpc : s.pc with
    | get | insertWaiter =>
      rw [hpc] at hfresh
      exact absurd rfl hfresh
    | take err => exact absurd hpc (htake err)
    | returned result =>
      rw [hpc] at hended
      cases hended
    | _ => rfl
  have hrecorded : s.recorded = true → s.waiter = true := by
    intro hr
    have hpc := SendPc.waits_of_records (rec.records hr)
    rcases rec.awaiting hr (hrest hpc) with hw | ⟨p, msg, hp⟩
    · exact hw
    · rw [hgrip p] at hp
      cases hp
  constructor
  · rw [Bool.eq_iff_iff]
    refine ⟨hrecorded, fun hw => ?_⟩
    by_contra hr
    obtain ⟨deadline, hpc⟩ := hrest (hwaits hw)
    obtain ⟨r, hr⟩ := rec.unrecorded hw (Bool.eq_false_of_not_eq_true hr) (by rw [hpc]; rfl)
    rw [htaking r] at hr
    cases hr
  · constructor
    · intro hw
      exact ⟨hrest (hwaits hw), (core.stored hw).1⟩
    · rintro ⟨⟨deadline, hpc⟩, ho⟩
      by_contra hw
      rcases core.unstored (Bool.eq_false_of_not_eq_true hw) (by rw [hpc]; rfl) with hne | ⟨p, hp⟩
      · exact hne ho
      · exact hp (hgrip p)

end Recorded

end Slot

/-! ## The condition -/

/-- When a request is put on the outbound queue and its corr is recorded, its waiter is
still stored, or the push that took it has not deleted the record yet. -/
def RecordsLive : Pool.Guard Host MapCall Choice := fun c me i =>
  ∀ call, c.task me = .send call →
    noteWaiter me c.shared (.send call) i = some (.queued me) →
    call.msg.corr ∈ c.shared.instances.waiterInstance.keys →
    call.msg.corr ∈ c.shared.instances.waiters.keys ∨
      ∃ p id msg, c.task p = .push id msg (some (.forget me))

theorem RecordsLive.slot {c : Config Host MapCall} {me : Nat} {i : Choice}
    (guard : RecordsLive c me i) {k : Nat} {call : SendCall} (hk : c.task k = .send call) :
    Slot.RecordLive k (noteWaiter me c.shared (c.task me) i) (slotOf c k call) := by
  intro he hr
  obtain ⟨rfl, -⟩ := noteWaiter_queued he
  rw [hk] at he
  have hkey : call.msg.corr ∈ c.shared.instances.waiterInstance.keys :=
    HashMap.mem_keys_iff.mpr (Option.isSome_iff_exists.mp hr)
  rcases guard call hk he hkey with hw | ⟨p, id, msg, hp⟩
  · exact .inl (Option.isSome_iff_exists.mpr (HashMap.mem_keys_iff.mp hw))
  · refine .inr ⟨p, msg, ?_⟩
    change (c.task p).grip k = _
    rw [hp]
    exact if_pos rfl

/-- What holds of the tables in the runs that meet the condition. -/
structure TablesInv (c : Config Host MapCall) : Prop extends Sound c where
  recorded : ∀ k call, c.task k = .send call → (slotOf c k call).Recorded

/-! ## At rest -/

theorem SendPc.await_of_atRest {call : SendCall} (hrest : (MapCall.send call).atRest = true)
    (hpc : call.pc.waits = true) : ∃ deadline, call.pc = .await deadline := by
  rw [MapCall.atRest] at hrest
  cases h : call.pc with
  | await deadline => exact ⟨deadline, rfl⟩
  | get | returned result =>
    rw [h] at hpc
    cases hpc
  | _ =>
    rw [h] at hrest
    cases hrest

theorem MapCall.grip_of_atRest {c : MapCall} (hrest : c.atRest = true) (k : Nat) :
    c.grip k = .free := by
  cases c with
  | push id msg pc =>
    have hpc : pc = none ∨ pc = some .complete := of_decide_eq_true hrest
    rcases hpc with rfl | rfl <;> rfl
  | _ => rfl

theorem MapCall.takes_of_atRest {c : MapCall} (hrest : c.atRest = true) (corr : UInt64) :
    c.takes corr = false := by
  cases c with
  | removeIf id token pc =>
    have hpc : pc = none ∨ pc = some .entry := of_decide_eq_true hrest
    rcases hpc with rfl | rfl <;> rfl
  | _ => rfl

namespace TablesInv

variable {c c' : Config Host MapCall} {me : Nat} {i : Choice}

theorem of_boot (boot : MapBoot c) (distinct : DistinctCorrs c) : TablesInv c where
  toSound := .of_boot boot distinct
  recorded k call hk := by
    rw [slotOf_boot boot hk]
    exact .of_initial

theorem step (inv : TablesInv c) (guard : RecordsLive c me i)
    (hf : mapCalls.fire c me i = some c') : TablesInv c' where
  toSound := inv.toSound.step hf
  recorded k call' hk' := by
    obtain ⟨call, hk, -, -, -, hstep⟩ := inv.slot_before hf hk'
    exact (inv.recorded k call hk).step (inv.core k call hk) hstep (guard.slot hk)

theorem of_reach {c₀ : Config Host MapCall} (boot : MapBoot c₀) (distinct : DistinctCorrs c₀)
    (run : mapCalls.Reach RecordsLive c₀ c) : TablesInv c :=
  run.invariant (of_boot boot distinct) fun _ _ _ _ inv guard hf => inv.step guard hf

/-- The tables at the corr of a call, when no operation is part-way through. -/
theorem agree (inv : TablesInv c) (hrest : ∀ t, (c.task t).atRest = true) {k : Nat}
    {call : SendCall} (hk : c.task k = .send call) :
    (slotOf c k call).recorded = (slotOf c k call).waiter ∧
      ((slotOf c k call).waiter = true ↔
        (∃ deadline, call.pc = .await deadline) ∧ c.shared.oneshot k = .waiting) := by
  have hcall := hrest k
  rw [hk] at hcall
  refine (inv.recorded k call hk).agree (inv.core k call hk) ?_ ?_ (fun p => ?_) (fun r => ?_)
  · intro hpc
    exact SendPc.await_of_atRest hcall hpc
  · intro err hpc
    rw [MapCall.atRest, show call.pc = .take err from hpc] at hcall
    cases hcall
  · exact MapCall.grip_of_atRest (hrest p) k
  · exact MapCall.takes_of_atRest (hrest r) call.msg.corr

end TablesInv

/-! ## The result -/

/-- The tables have the corrs of the calls that wait for a reply, and no others. -/
structure TablesAgree (c : Config Host MapCall) : Prop where
  keys : c.shared.instances.waiters.keys = c.shared.instances.waiterInstance.keys
  awaiting : ∀ corr, corr ∈ c.shared.instances.waiters.keys ↔
    ∃ k call deadline, c.task k = .send call ∧ call.msg.corr = corr ∧
      call.pc = .await deadline ∧ c.shared.oneshot k = .waiting
  returned : ∀ k call result, c.task k = .send call → call.pc = .returned result →
    call.msg.corr ∉ c.shared.instances.waiters.keys ∧
      call.msg.corr ∉ c.shared.instances.waiterInstance.keys

/-- **Residue.** In every run of calls with distinct corrs in which no request is queued
with a stale record, the two tables agree whenever no operation is part-way through. -/
theorem tablesAgree_of_recordsLive {c₀ c : Config Host MapCall} (boot : MapBoot c₀)
    (distinct : DistinctCorrs c₀) (run : mapCalls.Reach RecordsLive c₀ c)
    (hrest : ∀ t, (c.task t).atRest = true) : TablesAgree c := by
  have inv := TablesInv.of_reach boot distinct run
  have hkeys : ∀ k call, c.task k = .send call →
      (call.msg.corr ∈ c.shared.instances.waiterInstance.keys ↔
        call.msg.corr ∈ c.shared.instances.waiters.keys) := by
    intro k call hk
    rw [HashMap.mem_keys_iff, HashMap.mem_keys_iff, ← Option.isSome_iff_exists,
      ← Option.isSome_iff_exists]
    exact Bool.eq_iff_iff.mp (inv.agree hrest hk).1
  have hawaits : ∀ k call, c.task k = .send call →
      (call.msg.corr ∈ c.shared.instances.waiters.keys ↔
        (∃ deadline, call.pc = .await deadline) ∧ c.shared.oneshot k = .waiting) := by
    intro k call hk
    rw [HashMap.mem_keys_iff, ← Option.isSome_iff_exists]
    exact (inv.agree hrest hk).2
  have howner : ∀ corr, corr ∈ c.shared.instances.waiters.keys →
      ∃ k call, c.task k = .send call ∧ call.msg.corr = corr := by
    intro corr hmem
    obtain ⟨⟨kind, tx⟩, hl⟩ := HashMap.mem_keys_iff.mp hmem
    obtain ⟨call, htx, -, hcorr⟩ := inv.linked.registered corr kind tx hl
    exact ⟨tx, call, htx, hcorr⟩
  refine ⟨?_, ?_, ?_⟩
  · ext corr
    constructor
    · intro hmem
      obtain ⟨k, call, hk, rfl⟩ := howner corr hmem
      exact (hkeys k call hk).mpr hmem
    · intro hmem
      obtain ⟨id, hl⟩ := HashMap.mem_keys_iff.mp hmem
      obtain ⟨k, call, hk, rfl⟩ := inv.linked.recorded corr id hl
      exact (hkeys k call hk).mp hmem
  · intro corr
    constructor
    · intro hmem
      obtain ⟨k, call, hk, rfl⟩ := howner corr hmem
      obtain ⟨⟨deadline, hpc⟩, ho⟩ := (hawaits k call hk).mp hmem
      exact ⟨k, call, deadline, hk, rfl, hpc, ho⟩
    · rintro ⟨k, call, deadline, hk, rfl, hpc, ho⟩
      exact (hawaits k call hk).mpr ⟨⟨deadline, hpc⟩, ho⟩
  · intro k call result hk hpc
    have hnot : call.msg.corr ∉ c.shared.instances.waiters.keys := by
      intro hmem
      obtain ⟨⟨deadline, hawait⟩, -⟩ := (hawaits k call hk).mp hmem
      rw [hpc] at hawait
      cases hawait
    exact ⟨hnot, fun hmem => hnot ((hkeys k call hk).mp hmem)⟩

/-! ## Runs -/

/-- A call, a reply to it, and another call: both to `a`. -/
def replyToFirst : Config Host MapCall :=
  newMapWith [.insert { instanceId := "a" } 128 128,
    .send { instanceId := "a", msg := { corr := 1 }, timeout := 1, kind := .any },
    .push "a" { corr := 1 } (some .complete),
    .send { instanceId := "a", msg := { corr := 2 }, timeout := 1, kind := .any }]

theorem mapBoot_replyToFirst : MapBoot replyToFirst := mapBoot_newMapWith (by simp [MapCall.Fresh])

theorem distinctCorrs_replyToFirst : DistinctCorrs replyToFirst :=
  distinctCorrs_newMapWith (by decide)

/-- The environment is never part-way through an operation. -/
theorem atRest_of_listed {ok : Pool.Guard Host MapCall Choice} {calls : List MapCall}
    {c : Config Host MapCall} (run : mapCalls.Reach ok (newMapWith calls) c)
    (h : ∀ t < calls.length, (c.task t).atRest = true) (t : Nat) : (c.task t).atRest = true := by
  by_cases ht : t < calls.length
  · exact h t ht
  · have henv : c.task t = .environment := by
      refine @Pool.Reach.invariant _ _ _ mapCalls ok (fun c => c.task t = .environment) _ _ run ?_ ?_
      · change calls.getD t .environment = _
        rw [List.getD_eq_getElem?_getD, List.getElem?_eq_none (Nat.le_of_not_gt ht)]
        rfl
      · exact fun c me i c' hc _ hf => fire_call_environment hf hc
    rw [henv]
    rfl

/-- Each request goes out while its waiter is stored. -/
def storedFirst (c : Config Host MapCall) (me : Nat) : Bool :=
  (c.task me).sending.all fun call =>
    call.pc ≠ .trySend || (c.shared.instances.waiters.lookup call.msg.corr).isSome

def StoredFirst : Pool.Guard Host MapCall Choice := fun c me _ => storedFirst c me = true

instance (c : Config Host MapCall) (me : Nat) (i : Choice) : Decidable (StoredFirst c me i) :=
  inferInstanceAs (Decidable (_ = true))

theorem recordsLive_of_storedFirst {c : Config Host MapCall} {me : Nat} {i : Choice}
    (h : StoredFirst c me i) : RecordsLive c me i := by
  intro call hme he _
  obtain ⟨-, call', hcall, hpc⟩ := noteWaiter_queued he
  obtain rfl : call = call' := by simpa using hcall
  left
  unfold StoredFirst storedFirst at h
  rw [hme] at h
  have hw : (c.shared.instances.waiters.lookup call.msg.corr).isSome = true := by
    simpa [MapCall.sending, hpc] using h
  exact HashMap.mem_keys_iff.mpr (Option.isSome_iff_exists.mp hw)

/-- The first call has returned its reply, the second one waits. -/
theorem tablesAgree_replied :
    ∃ c, mapCalls.Reach RecordsLive replyToFirst c ∧ (∀ t, (c.task t).atRest = true) ∧
      2 ∈ c.shared.instances.waiters.keys ∧ TablesAgree c := by
  obtain ⟨c, run, hrest, hkey⟩ := mapCalls.exists_reach StoredFirst replyToFirst
    [(0, .run), (0, .run), (1, .run), (1, .run), (3, .run), (3, .run), (1, .run), (1, .run),
      (2, .run), (3, .run), (2, .run), (2, .run), (3, .run), (2, .run), (1, .run)]
    (fun c => (∀ t < (4 : Nat), (c.task t).atRest = true) ∧ (2 : UInt64) ∈ c.shared.instances.waiters.keys)
    (by decide +kernel)
  replace run := run.mono fun _ _ _ => recordsLive_of_storedFirst
  have hall := atRest_of_listed run hrest
  exact ⟨c, run, hall, hkey, tablesAgree_of_recordsLive mapBoot_replyToFirst
    distinctCorrs_replyToFirst run hall⟩

/-- The reply arrives between the two inserts of `register_waiter`: the call returns it, and
its corr stays in the second table. -/
theorem not_tablesAgree_answeredEarly :
    ¬ ∀ c₀ c, MapBoot c₀ → DistinctCorrs c₀ → mapCalls.Reach Pool.anyStep c₀ c →
      (∀ t, (c.task t).atRest = true) → TablesAgree c := by
  intro hall
  obtain ⟨c, run, hrest, hkey, hkey'⟩ := mapCalls.exists_reach Pool.anyStep replyToFirst
    [(0, .run), (0, .run), (1, .run), (1, .run), (2, .run), (2, .run), (2, .run), (2, .run),
      (1, .run), (1, .run), (1, .run)]
    (fun c => (∀ t < (4 : Nat), (c.task t).atRest = true) ∧
      (1 : UInt64) ∉ c.shared.instances.waiters.keys ∧ (1 : UInt64) ∈ c.shared.instances.waiterInstance.keys)
    (by decide +kernel)
  have agree := hall _ c mapBoot_replyToFirst distinctCorrs_replyToFirst run
    (atRest_of_listed run hrest)
  rw [agree.keys] at hkey
  exact hkey hkey'

end CsmProxy
