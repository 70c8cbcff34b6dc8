import CsmProxy.Waiters.SlotRefinement

/-!
# Whose reply a call returns

`complete_waiter` looks a waiter up by the corr of the envelope alone, although the
instance of every waiter is recorded next to it and `fail_waiters` does compare it.
So an envelope of one simulator can answer a call to another one
(`not_replyIsolation_foreign_corr`). As long as every envelope that is about to
complete a waiter was pushed for the instance of that waiter, replies are isolated
(`replyIsolation_of_repliesToOwn`). They are whenever no simulator sends the corr of a
request to another one (`replyIsolation_of_echoesOwn`).
-/

namespace CsmProxy

open Foundations

/-- The waiter that a push is about to complete, and the record of it that it is about
to delete, belong to the instance of the push. -/
def repliesToOwn (c : Config Host MapCall) (me : Nat) : Bool :=
  match c.task me with
  | .push id msg (some .complete) =>
    (c.shared.instances.waiters.lookup msg.corr).all fun waiter =>
      msg.corr = 0 || !InstanceMap.waiterMatches waiter.1 msg ||
        (c.task waiter.2).sending.all fun call => call.instanceId = id
  | .push id msg (some (.forget _)) =>
    (c.shared.instances.waiterInstance.lookup msg.corr).all fun id' => id' = id
  | _ => true

theorem repliesToOwn_complete {c : Config Host MapCall} {me tx : Nat} {id : String}
    {msg : SimToServer} {kind : WaitKind} {call : SendCall} (h : repliesToOwn c me = true)
    (hme : c.task me = .push id msg (some .complete)) (hcorr : msg.corr ≠ 0)
    (hl : c.shared.instances.waiters.lookup msg.corr = some (kind, tx))
    (hm : InstanceMap.waiterMatches kind msg = true) (htx : c.task tx = .send call) :
    call.instanceId = id := by
  simpa [repliesToOwn, hme, hl, hm, hcorr, htx, MapCall.sending] using h

theorem repliesToOwn_forget {c : Config Host MapCall} {me tx : Nat} {id id' : String}
    {msg : SimToServer} (h : repliesToOwn c me = true)
    (hme : c.task me = .push id msg (some (.forget tx)))
    (hl : c.shared.instances.waiterInstance.lookup msg.corr = some id') : id' = id := by
  simpa [repliesToOwn, hme, hl] using h

/-- The guard of the runs in which every reply goes to its own instance. -/
def RepliesToOwn : Pool.Guard Host MapCall Choice := fun c me _ => repliesToOwn c me = true

instance : ∀ (c : Config Host MapCall) (me : Nat) (i : Choice), Decidable (RepliesToOwn c me i) :=
  fun c me _ => inferInstanceAs (Decidable (repliesToOwn c me = true))

/-! ## The invariant -/

/-- Senders stay with the calls that made them and with the pushes of their instance. -/
structure ReplyInv (c : Config Host MapCall) : Prop where
  registered : ∀ corr kind tx, c.shared.instances.waiters.lookup corr = some (kind, tx) →
    ∃ call, c.task tx = .send call ∧ call.kind = kind ∧ call.msg.corr = corr
  taken : ∀ t id msg pc tx, c.task t = .push id msg (some pc) → pc.holds = some tx →
    ∃ call, c.task tx = .send call ∧ call.instanceId = id
  sent : ∀ k via reply, c.shared.oneshot k = .sent via reply →
    (∃ call, c.task k = .send call ∧ call.instanceId = via) ∧ ∃ t pc, c.task t = .push via reply pc
  returned : ∀ t call reply, c.task t = .send call → call.pc = .returned (.ok reply) →
    call.via = some call.instanceId ∧ ∃ t' pc, c.task t' = .push call.instanceId reply pc

namespace ReplyInv

theorem of_boot {c : Config Host MapCall} (h : MapBoot c) : ReplyInv c := by
  obtain ⟨default, config, now, hshared⟩ := h.shared
  refine ⟨?_, ?_, ?_, ?_⟩
  · intro corr kind tx hl
    rw [hshared] at hl
    exact absurd (hl.symm.trans (HashMap.lookup_empty corr)) (by simp)
  · intro t id msg pc tx ht htx
    have hf := h.fresh t
    rw [ht] at hf
    obtain rfl := Option.some.inj hf
    cases htx
  · intro k via reply hk
    rw [hshared] at hk
    cases hk
  · intro t call reply ht hr
    have hf := h.fresh t
    rw [ht] at hf
    rw [congrArg SendCall.pc hf] at hr
    cases hr

section

variable {c c' : Config Host MapCall} {me : Nat} {i : Choice}

/-- The sender that an admitted push takes belongs to a call for its own instance. -/
theorem step_taken (inv : ReplyInv c) (guard : repliesToOwn c me = true)
    (hf : mapCalls.fire c me i = some c') {t tx : Nat} {id : String} {msg : SimToServer}
    {pc : PushPc} (ht : c'.task t = .push id msg (some pc)) (htx : pc.holds = some tx) :
    ∃ call, c'.task tx = .send call ∧ call.instanceId = id := by
  have hcall : ∃ call, c.task tx = .send call ∧ call.instanceId = id := by
    obtain ⟨pc₀, hpush, hold | ⟨rfl, rfl, hcorr, kind, hl, hm⟩⟩ := fire_holds hf ht htx
    · exact inv.taken t id msg pc₀ tx hpush hold
    · obtain ⟨call, hcall, -, -⟩ := inv.registered _ _ _ hl
      exact ⟨call, hcall, repliesToOwn_complete guard hpush hcorr hl hm hcall⟩
  obtain ⟨call, hold, rfl⟩ := hcall
  obtain ⟨call', hnew, hid, -, -⟩ := fire_send hf hold
  exact ⟨call', hnew, hid⟩

theorem step_sent (inv : ReplyInv c) (hf : mapCalls.fire c me i = some c') {k : Nat} {via : String}
    {reply : SimToServer} (hk : c'.shared.oneshot k = .sent via reply) :
    (∃ call, c'.task k = .send call ∧ call.instanceId = via) ∧
      ∃ t pc, c'.task t = .push via reply pc := by
  have hold : (∃ call, c.task k = .send call ∧ call.instanceId = via) ∧
      ∃ t pc, c.task t = .push via reply pc := by
    rcases MapCall.step_sent (fire_call hf).1 hk with hold | hme
    · exact inv.sent k via reply hold
    · exact ⟨inv.taken me via reply _ k hme rfl, me, _, hme⟩
  obtain ⟨⟨call, hcall, hid⟩, t, pc, ht⟩ := hold
  obtain ⟨call', hcall', hid', -, -⟩ := fire_send hf hcall
  exact ⟨⟨call', hcall', hid'.trans hid⟩, t, fire_push hf ht⟩

/-- A call returns what was sent on its own channel. -/
theorem step_reply (inv : ReplyInv c) (hf : mapCalls.fire c me i = some c') {t : Nat}
    {call' : SendCall} {reply : SimToServer} (ht : c'.task t = .send call')
    (hr : call'.pc = .returned (.ok reply)) :
    call'.via = some call'.instanceId ∧ ∃ t' pc, c'.task t' = .push call'.instanceId reply pc := by
  obtain ⟨hs, hother⟩ := fire_call hf
  rcases MapCall.send_before hs hother ht with ⟨-, hold⟩ | ⟨rfl, call, hcall, hp⟩
  · obtain ⟨hvia, t', pc, ht'⟩ := inv.returned t call' reply hold hr
    exact ⟨hvia, t', fire_push hf ht'⟩
  · obtain ⟨via, hvia, hrec⟩ := SendCall.step_returned hp hr
    obtain ⟨⟨call₂, hcall₂, hid⟩, t', pc, ht'⟩ := inv.sent t via reply hvia
    obtain rfl : call = call₂ := by
      rw [hcall] at hcall₂
      cases hcall₂
      rfl
    have hargs := SendCall.step_args hp
    subst hid
    rw [hargs.1]
    exact ⟨hrec, t', fire_push hf ht'⟩

/-- An admitted section keeps the invariant. -/
theorem step (inv : ReplyInv c) (guard : repliesToOwn c me = true)
    (hf : mapCalls.fire c me i = some c') : ReplyInv c' where
  registered _ _ _ hl := fire_registered hf inv.registered hl
  taken _ _ _ _ _ ht htx := inv.step_taken guard hf ht htx
  sent _ _ _ hk := inv.step_sent hf hk
  returned _ _ _ ht hr := inv.step_reply hf ht hr

end

theorem of_reach {c₀ c : Config Host MapCall} (boot : MapBoot c₀)
    (run : mapCalls.Reach RepliesToOwn c₀ c) : ReplyInv c :=
  run.invariant (of_boot boot) fun _ _ _ _ inv guard hf => inv.step guard hf

end ReplyInv

/-! ## The result -/

/-- Replies do not cross instances. The steps that are considered are those that meet `ok`. -/
structure ReplyIsolation (ok : Pool.Guard Host MapCall Choice) (c : Config Host MapCall) :
    Prop where
  /-- A call for `A` that returned a reply got it from a push for `A`. -/
  reply : ∀ t call reply, c.task t = .send call → call.pc = .returned (.ok reply) →
    call.via = some call.instanceId ∧ ∃ t' pc, c.task t' = .push call.instanceId reply pc
  /-- A section of a push for `B` leaves the waiters of every other instance alone. -/
  waiter : ∀ me id msg pc i c', c.task me = .push id msg pc → ok c me i →
    mapCalls.fire c me i = some c' →
      (∀ corr kind tx call, c.shared.instances.waiters.lookup corr = some (kind, tx) →
        c.task tx = .send call → call.instanceId ≠ id →
        c'.shared.instances.waiters.lookup corr = some (kind, tx) ∧
          c'.shared.oneshot tx = c.shared.oneshot tx) ∧
      ∀ corr id', c.shared.instances.waiterInstance.lookup corr = some id' → id' ≠ id →
        c'.shared.instances.waiterInstance.lookup corr = some id'

theorem ReplyInv.push_frame {c c' : Config Host MapCall} {me : Nat} {id : String}
    {msg : SimToServer} {pc : Option PushPc} {i : Choice} (inv : ReplyInv c)
    (hme : c.task me = .push id msg pc) (guard : repliesToOwn c me = true)
    (hf : mapCalls.fire c me i = some c') :
    (∀ corr kind tx call, c.shared.instances.waiters.lookup corr = some (kind, tx) →
      c.task tx = .send call → call.instanceId ≠ id →
      c'.shared.instances.waiters.lookup corr = some (kind, tx) ∧
        c'.shared.oneshot tx = c.shared.oneshot tx) ∧
    ∀ corr id', c.shared.instances.waiterInstance.lookup corr = some id' → id' ≠ id →
      c'.shared.instances.waiterInstance.lookup corr = some id' := by
  obtain ⟨g, l, hs, rfl⟩ := Pool.fire_eq_some.mp hf
  change (c.task me).step me c.shared i = some (g, l) at hs
  rw [hme] at hs
  obtain ⟨pc₀, rfl, -, rfl, -⟩ := MapCall.step_push hs
  cases pc₀ with
  | complete =>
    refine ⟨?_, ?_⟩
    · intro corr kind tx call hl htx hne
      refine ⟨?_, rfl⟩
      change (c.shared.instances.takeMatching msg).2.waiters.lookup corr = _
      rw [InstanceMap.lookup_takeMatching, if_neg, hl]
      rintro ⟨htake, rfl⟩
      obtain ⟨tx', htx'⟩ := Option.isSome_iff_exists.mp htake
      obtain ⟨hcorr, kind', hl', hm⟩ := InstanceMap.takeMatching_fst htx'
      rw [hl] at hl'
      cases hl'
      exact hne (repliesToOwn_complete guard hme hcorr hl hm htx)
    · intro corr id' hl _
      change (c.shared.instances.takeMatching msg).2.waiterInstance.lookup corr = _
      rw [(InstanceMap.takeMatching_frame _ _).2.2]
      exact hl
  | forget tx =>
    refine ⟨fun corr kind tx call hl _ _ => ⟨hl, rfl⟩, ?_⟩
    intro corr id' hl hne
    change Finmap.lookup corr (c.shared.instances.waiterInstance.erase msg.corr) = _
    rw [HashMap.lookup_erase_ite, if_neg, hl]
    rintro rfl
    exact hne (repliesToOwn_forget guard hme hl)
  | reply tx =>
    refine ⟨?_, fun corr id' hl _ => hl⟩
    intro corr kind tx' call hl htx' hne
    refine ⟨hl, Function.update_of_ne ?_ ..⟩
    -- the sender that the push holds belongs to a call for `id`
    rintro rfl
    obtain ⟨call', hcall', hid⟩ := inv.taken me id msg _ tx' hme rfl
    rw [htx'] at hcall'
    cases hcall'
    exact hne hid
  | enqueue => exact ⟨fun corr kind tx call hl _ _ => ⟨hl, rfl⟩, fun corr id' hl _ => hl⟩

/-- **Reply isolation.** Along every run in which each envelope that is about to
complete a waiter was pushed for the instance of that waiter, replies do not cross. -/
theorem replyIsolation_of_repliesToOwn {c₀ c : Config Host MapCall} (boot : MapBoot c₀)
    (run : mapCalls.Reach RepliesToOwn c₀ c) : ReplyIsolation RepliesToOwn c := by
  have inv := ReplyInv.of_reach boot run
  exact ⟨inv.returned, fun me id msg pc i c' hme guard hf => inv.push_frame hme guard hf⟩

/-! ## Simulators that echo their own corrs -/

/-- No simulator sends the corr of a request to another one. -/
def EchoesOwn (c : Config Host MapCall) : Prop :=
  ∀ t k id msg pc call, c.task t = .push id msg pc → c.task k = .send call → msg.corr ≠ 0 →
    call.msg.corr = msg.corr → call.instanceId = id

/-- The records are those of the calls, and an envelope that has completed a waiter has a
corr. -/
structure EchoInv (c : Config Host MapCall) : Prop where
  echoes : EchoesOwn c
  recorded : ∀ corr id, c.shared.instances.waiterInstance.lookup corr = some id →
    ∃ k call, c.task k = .send call ∧ call.msg.corr = corr ∧ call.instanceId = id
  held : ∀ t id msg pc tx, c.task t = .push id msg (some pc) → pc.holds = some tx → msg.corr ≠ 0

namespace EchoInv

variable {c c' : Config Host MapCall} {me : Nat} {i : Choice}

theorem of_boot (boot : MapBoot c) (echoes : EchoesOwn c) : EchoInv c := by
  obtain ⟨default, config, now, hshared⟩ := boot.shared
  refine ⟨echoes, fun corr id hl => ?_, fun t id msg pc tx ht htx => ?_⟩
  · rw [hshared] at hl
    exact absurd (hl.symm.trans (HashMap.lookup_empty corr)) (by simp)
  · have hf := boot.fresh t
    rw [ht] at hf
    obtain rfl := Option.some.inj hf
    cases htx

theorem fire (inv : EchoInv c) (hf : mapCalls.fire c me i = some c') : EchoInv c' := by
  obtain ⟨hs, hother⟩ := fire_call hf
  refine ⟨fun t k id msg pc call ht hk hcorr heq => ?_, fun corr id hl => ?_, ?_⟩
  · obtain ⟨pc₀, ht₀⟩ : ∃ pc₀, c.task t = .push id msg pc₀ := by
      by_cases htm : t = me
      · subst htm
        exact (MapCall.step_kind hs).2 id msg pc ht
      · exact ⟨pc, (hother t htm).symm.trans ht⟩
    rcases MapCall.send_before hs hother hk with ⟨-, hold⟩ | ⟨-, call₀, hcall, hp⟩
    · exact inv.echoes t k id msg pc₀ call ht₀ hold hcorr heq
    · obtain ⟨hid, hmsg, -⟩ := SendCall.step_args hp
      rw [hid]
      exact inv.echoes t me id msg pc₀ call₀ ht₀ hcall hcorr (hmsg ▸ heq)
  · obtain ⟨k, call, hk, hcorr, hid⟩ : ∃ k call, c.task k = .send call ∧ call.msg.corr = corr ∧
        call.instanceId = id := by
      rcases MapCall.step_recorded hs hl with hold | ⟨call, hcall, hcorr, hid, -⟩
      · exact inv.recorded corr id hold
      · exact ⟨me, call, hcall, hcorr, hid⟩
    obtain ⟨call', hk', hid', hmsg, -⟩ := fire_send hf hk
    exact ⟨k, call', hk', hmsg ▸ hcorr, hid'.trans hid⟩
  · intro t id msg pc tx ht htx
    obtain ⟨pc₀, ht₀, hold | ⟨-, -, hcorr, -⟩⟩ := fire_holds hf ht htx
    · exact inv.held t id msg pc₀ tx ht₀ hold
    · exact hcorr

/-- Every section of a push is one that the guard admits. -/
theorem repliesToOwn (inv : EchoInv c) (reply : ReplyInv c) (me : Nat) :
    repliesToOwn c me = true := by
  unfold CsmProxy.repliesToOwn
  split
  · rename_i id msg hme
    cases hl : c.shared.instances.waiters.lookup msg.corr with
    | none => rfl
    | some waiter =>
      obtain ⟨kind, tx⟩ := waiter
      obtain ⟨call, htx, -, hcorr⟩ := reply.registered msg.corr kind tx hl
      by_cases hzero : msg.corr = 0
      · simp [hzero]
      · have hid := inv.echoes me tx id msg _ call hme htx hzero hcorr
        simp [htx, MapCall.sending, hid]
  · rename_i id msg tx hme
    cases hl : c.shared.instances.waiterInstance.lookup msg.corr with
    | none => rfl
    | some id' =>
      obtain ⟨k, call, hk, hcorr, rfl⟩ := inv.recorded msg.corr id' hl
      have hid := inv.echoes me k id msg _ call hme hk (inv.held me id msg _ tx hme rfl) hcorr
      simp [hid]
  · rfl

end EchoInv

/-- Replies do not cross when every simulator echoes only the corrs of its own requests,
whatever the schedule. -/
theorem replyIsolation_of_echoesOwn {c₀ c : Config Host MapCall} (boot : MapBoot c₀)
    (echoes : EchoesOwn c₀) (run : mapCalls.Reach Pool.anyStep c₀ c) :
    ReplyIsolation Pool.anyStep c := by
  have start : ReplyInv c₀ ∧ EchoInv c₀ := ⟨.of_boot boot, .of_boot boot echoes⟩
  have inv : ReplyInv c ∧ EchoInv c := by
    induction run with
    | refl => exact start
    | @tail b c me i _ _ hf ih => exact ⟨ih.1.step (ih.2.repliesToOwn ih.1 me) hf, ih.2.fire hf⟩
  exact ⟨inv.1.returned, fun me id msg pc i c' hme _ hf =>
    inv.1.push_frame hme (inv.2.repliesToOwn inv.1 me) hf⟩

/-! ## Runs -/

/-- A call for `a` that waits under corr `1`, with `a` and `b` connected, and an ack
with that corr that is pushed for `id`. -/
def waitAndAck (id : String) : Config Host MapCall :=
  newMapWith [.insert { instanceId := "a" } 128 128, .insert { instanceId := "b" } 128 128,
    .send { instanceId := "a", msg := { corr := 1 }, timeout := 1, kind := .inputAck },
    .push id { corr := 1, payload := some (.inputAck { accepted := true }) } (some .complete)]

theorem mapBoot_waitAndAck (id : String) : MapBoot (waitAndAck id) :=
  mapBoot_newMapWith (by simp [MapCall.Fresh])

/-- The two inserts, the request, the ack, and the return of the call. -/
def waitAndAckRun : List (Nat × Choice) :=
  [(0, .run), (0, .run), (1, .run), (1, .run), (2, .run), (2, .run), (2, .run), (2, .run),
    (3, .run), (3, .run), (3, .run), (2, .run)]

/-- The ack of `a` itself is returned. -/
theorem replyIsolation_own_ack :
    ∃ c, mapCalls.Reach RepliesToOwn (waitAndAck "a") c ∧
      (c.task 2).sending.bind SendCall.via = some "a" ∧ ReplyIsolation RepliesToOwn c := by
  obtain ⟨c, run, hvia⟩ := mapCalls.exists_reach RepliesToOwn (waitAndAck "a") waitAndAckRun
    (fun c => (c.task 2).sending.bind SendCall.via = some "a") (by decide +kernel)
  exact ⟨c, run, hvia, replyIsolation_of_repliesToOwn (mapBoot_waitAndAck "a") run⟩

/-- The ack that `b` sent under the same corr is returned as the reply of `a`. -/
theorem not_replyIsolation_foreign_corr :
    ¬ ∀ c₀ c, MapBoot c₀ → mapCalls.Reach Pool.anyStep c₀ c → ReplyIsolation Pool.anyStep c := by
  intro hall
  obtain ⟨c, run, hcall⟩ := mapCalls.exists_reach Pool.anyStep (waitAndAck "b") waitAndAckRun
    (fun c => c.task 2 = .send ⟨"a", { corr := 1 }, 1, .inputAck,
      .returned (.ok { corr := 1, payload := some (.inputAck { accepted := true }) }), some 1,
      some "b"⟩) (by decide +kernel)
  have hvia := ((hall _ c (mapBoot_waitAndAck "b") run).reply 2 _ _ hcall rfl).1
  exact absurd hvia (by decide)

end CsmProxy
