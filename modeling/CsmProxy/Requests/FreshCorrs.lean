import CsmProxy.Foundations.Tickets
import CsmProxy.Requests.Traffic

/-!
# No two requests have one corr

As long as the counter of corrs has not come round, the envelopes that the tools queue have
corrs of their own, and none has the corr `0`, which stands for "no reply asked for"
(`queuedCorrs_nodup`). A corr is a ticket: a task draws it, holds it and spends it.
-/

namespace CsmProxy

open Foundations

/-- The corr of an envelope that is queued. -/
def RequestEvent.queuedCorr : RequestEvent → Option UInt64
  | .queued _ _ _ msg => some msg.corr
  | .registered .. => none

/-- The corrs of the envelopes queued so far, the newest first. -/
def queuedCorrs (log : List RequestEvent) : List UInt64 := log.filterMap RequestEvent.queuedCorr

theorem queuedCorrs_note (note : Option RequestEvent) (log : List RequestEvent) :
    queuedCorrs (note.toList ++ log) =
      (note.bind RequestEvent.queuedCorr).toList ++ queuedCorrs log := by
  cases note with
  | none => rfl
  | some e => cases e <;> rfl

theorem mem_queuedCorrs {log : List RequestEvent} {tx : Nat} {id : String} {session : Option Nat}
    {msg : ServerToSim} (he : .queued tx id session msg ∈ log) : msg.corr ∈ queuedCorrs log :=
  List.mem_filterMap.mpr ⟨_, he, rfl⟩

/-- The history has one envelope of each corr. -/
theorem queued_unique {log : List RequestEvent} (hnodup : (queuedCorrs log).Nodup)
    {tx tx' : Nat} {id id' : String} {session session' : Option Nat} {msg msg' : ServerToSim}
    (he : .queued tx id session msg ∈ log) (he' : .queued tx' id' session' msg' ∈ log)
    (hcorr : msg.corr = msg'.corr) : session = session' := by
  induction log with
  | nil => cases he
  | cons e log ih =>
    rcases List.mem_cons.mp he with rfl | hold <;> rcases List.mem_cons.mp he' with he' | hold'
    · cases he'
      rfl
    · have hnot := (List.nodup_cons.mp hnodup).1
      exact absurd (hcorr ▸ mem_queuedCorrs hold') hnot
    · subst he'
      have hnot := (List.nodup_cons.mp hnodup).1
      exact absurd (hcorr ▸ mem_queuedCorrs hold) hnot
    · refine ih ?_ hold hold'
      cases e with
      | registered => exact hnodup
      | queued => exact (List.nodup_cons.mp hnodup).2

/-- The counter of corrs has not come round to `0`. -/
def Unwrapped {E : Type} : Pool.Guard (Host × List E) ServerTask Choice :=
  fun c _ _ => c.shared.1.instances.nextCorr ≠ 0

/-- What one section of a task does with its corr. -/
inductive Stage.Effect (h h' : Host) (note : Option RequestEvent) (s s' : Stage) : Prop
  | draws {id : String} {msg : ServerToSim} (free : s.outgoing = none)
    (held : s'.outgoing = some (id, msg)) (corr : msg.corr = h.instances.nextCorr)
    (counter : h'.instances.nextCorr = h.instances.nextCorr + 1)
    (quiet : note.bind RequestEvent.queuedCorr = none)
  | spends {tx : Nat} {id : String} {msg : ServerToSim} (held : s.outgoing = some (id, msg))
    (event : note = some (.queued tx id (h.instances.tokenOf id) msg))
    (counter : h'.instances.nextCorr = h.instances.nextCorr) (free : s'.outgoing = none)
  | keeps (counter : h'.instances.nextCorr = h.instances.nextCorr)
    (held : s'.outgoing = s.outgoing) (quiet : note.bind RequestEvent.queuedCorr = none)
  | loses (counter : h'.instances.nextCorr = h.instances.nextCorr) (free : s'.outgoing = none)
    (quiet : note.bind RequestEvent.queuedCorr = none)

theorem InstanceMap.trySend_counter {m m' : InstanceMap} {id : String} {msg : ServerToSim}
    (h : m.trySend id msg = .ok m') : m'.nextCorr = m.nextCorr := by
  unfold trySend at h
  split at h
  · cases h
  · split at h <;> cases h
    rfl

theorem SendCall.step_counter {me : Nat} {h h' : Host} {c c' : SendCall} {i : Choice}
    (hs : c.step me h i = some (h', c')) : h'.instances.nextCorr = h.instances.nextCorr := by
  cases step_section hs with
  | insertWaiter | take => rw [Host.dropSender_instances]; rfl
  | queued _ sent => exact InstanceMap.trySend_counter sent
  | _ => rfl

theorem RemovePc.step_counter {id : String} {token : Nat} {h h' : Host} {pc : RemovePc} {i : Choice}
    {out : Option RemovePc} (hs : pc.step id token h i = some (h', out)) :
    h'.instances.nextCorr = h.instances.nextCorr := by
  cases step_section hs with
  | entry =>
    change (h.instances.removeEntry id token).nextCorr = _
    unfold InstanceMap.removeEntry
    split <;> rfl
  | take => rw [Host.dropSender_instances]; rfl
  | _ => rfl

theorem Session.step_counter {h h' : Host} {s s' : Session} {i : Choice}
    (hs : s.step h i = some (h', s')) : h'.instances.nextCorr = h.instances.nextCorr := by
  cases step_section hs with
  | @push msg sub _ out _ call =>
    obtain rfl : (sub.step s.register.instanceId msg h).1 = h' := congrArg Prod.fst call
    cases sub with
    | complete =>
      change (h.instances.takeMatching msg).2.nextCorr = _
      unfold InstanceMap.takeMatching
      repeat' split
      all_goals rfl
    | _ => rfl
  | removeGoodbye _ call | remove _ call => exact RemovePc.step_counter call
  | _ => rfl

namespace Stage

theorem outgoing_of_enqueuing {s : Stage} {ackRequested : Bool} {payload : ServerPayload}
    {pc : EnqueuePc} (h : s.enqueuing = some (ackRequested, payload, pc)) :
    s.outgoing = pc.outgoing ackRequested payload := by
  simp only [outgoing, h]

theorem enqueuing_of_sending {s : Stage} {call : SendCall} (h : s.sending = some call) :
    s.enqueuing = none := by
  cases s with
  | request number r pc =>
    cases pc with
    | enqueue q => cases h
    | wait w pc => rfl
  | _ => cases h

theorem outgoing_of_sending {s : Stage} {call : SendCall} (h : s.sending = some call) :
    s.outgoing = call.outgoing := by
  simp only [outgoing, enqueuing_of_sending h, h, Option.bind_some]

theorem note_of_enqueuing {me : Nat} {h : Host} {s : Stage} {ackRequested : Bool}
    {payload : ServerPayload} {pc : EnqueuePc}
    (hs : s.enqueuing = some (ackRequested, payload, pc)) :
    s.note me h = pc.note (s.name me) h ackRequested payload := by
  simp only [Stage.note, hs]

theorem note_of_sending {me : Nat} {h : Host} {s : Stage} {call : SendCall}
    (hs : s.sending = some call) : s.note me h = call.note (s.name me) h := by
  simp only [Stage.note, enqueuing_of_sending hs, hs, Option.bind_some]

theorem Idle.note {s : Stage} (hs : s.Idle) (me : Nat) (h : Host) : s.note me h = none := by
  have hout := hs.outgoing
  cases hq : s.enqueuing with
  | none => simp only [Stage.note, hq, hs.sending, Option.bind_none]
  | some e =>
    obtain ⟨ackRequested, payload, pc⟩ := e
    rw [outgoing_of_enqueuing hq] at hout
    rw [note_of_enqueuing hq]
    cases pc <;> first | rfl | cases hout

/-- A section of `enqueue`. -/
theorem Enqueues.effect {me : Nat} {h h' : Host} {s s' : Stage} {ackRequested : Bool}
    {payload : ServerPayload} {pc : EnqueuePc} (moves : Enqueues h h' s s' ackRequested payload pc) :
    Effect h h' (s.note me h) s s' := by
  obtain ⟨hbefore, hhost, hnext, hlast⟩ := moves
  have hout := outgoing_of_enqueuing hbefore
  rw [note_of_enqueuing hbefore]
  have hsection := EnqueuePc.step_section ackRequested payload h pc
  generalize (pc.step ackRequested payload h).1 = g at hhost hsection
  generalize (pc.step ackRequested payload h).2 = out at hnext hlast hsection
  subst hhost
  cases hsection with
  | default | resolved =>
    have hout' := outgoing_of_enqueuing (hnext _ rfl)
    exact .keeps rfl (hout'.trans hout.symm) rfl
  | noDefault | unresolved => exact .loses rfl (hlast _ rfl).outgoing rfl
  | drawn => exact .draws hout (outgoing_of_enqueuing (hnext _ rfl)) rfl rfl rfl
  | @queued id corr instances sent =>
    have hevent : (EnqueuePc.trySend id corr).note (s.name me) h ackRequested payload =
        some (.queued (s.name me) id (h.instances.tokenOf id)
          { corr, ackRequested, payload := some payload }) := by
      rw [EnqueuePc.note, noteQueued, sent]
    exact .spends hout hevent (InstanceMap.trySend_counter sent) (hlast _ rfl).outgoing
  | refused refusal =>
    refine .loses rfl (hlast _ rfl).outgoing ?_
    rw [EnqueuePc.note, noteQueued, refusal]
    rfl

/-- A section of `send_and_wait_for`. -/
theorem effect_of_send {me : Nat} {h h' : Host} {i : Choice} {s s' : Stage} {call call' : SendCall}
    (hbefore : s.sending = some call) (hs : call.step (s.name me) h i = some (h', call'))
    (hnext : s'.sending = some call' ∨ ((∃ result, call'.pc = .returned result) ∧ s'.Idle)) :
    Effect h h' (s.note me h) s s' := by
  have hcounter := SendCall.step_counter hs
  have hout := outgoing_of_sending hbefore
  have hout' : s'.outgoing = call'.outgoing := by
    rcases hnext with hnext | ⟨⟨result, hpc⟩, hidle⟩
    · exact outgoing_of_sending hnext
    · rw [hidle.outgoing, SendCall.outgoing, hpc]
  rw [note_of_sending hbefore, SendCall.note]
  rw [SendCall.outgoing] at hout
  cases SendCall.step_section hs with
  | connected pc | insertWaiter pc | insertInstance pc =>
    rw [pc] at hout ⊢
    exact .keeps hcounter (hout'.trans hout.symm) rfl
  | queued pc sent =>
    rw [pc] at hout ⊢
    simp only [noteQueued, sent]
    exact .spends hout rfl hcounter hout'
  | refused pc refusal =>
    rw [pc]
    simp only [noteQueued, refusal]
    exact .loses hcounter hout' rfl
  | unknown pc | forget pc | take pc | answered pc | disconnected pc | timedOut pc =>
    rw [pc]
    exact .loses hcounter hout' rfl

theorem Move.effect {me : Nat} {h h' : Host} {i : Choice} {s s' : Stage}
    (hs : Move me h i h' s s') : Effect h h' (s.note me h) s s' := by
  cases hs with
  | enqueue moves => exact moves.effect
  | @draw call idle pc corr host next =>
    subst host
    have hheld : s'.outgoing = some (call.instanceId, call.msg) := by
      rw [outgoing_of_sending next, SendCall.outgoing, pc]
    exact .draws idle.outgoing hheld corr rfl (by rw [idle.note]; rfl)
  | send before step next => exact effect_of_send before step (next.imp_left And.left)
  | session before step next =>
    subst before next
    exact .keeps (Session.step_counter step) rfl rfl
  | other idle quiet next => exact .loses quiet.counter next.outgoing (by rw [idle.note]; rfl)

end Stage

/-! ## Runs -/

/-- The corrs as tickets: a task holds the corr of its envelope, and queueing spends it. -/
def ticketsOf (drawn : Nat) (c : Config (Host × List RequestEvent) ServerTask) : Tickets Nat where
  drawn := drawn
  held t := (c.task t).stage.outgoing.map fun e => e.2.corr.toNat
  spent := (queuedCorrs c.shared.2).map UInt64.toNat

/-- Each of the corrs `1`, ..., `drawn` is in one place. -/
structure CorrsDrawn (drawn : Nat) (c : Config (Host × List RequestEvent) ServerTask) : Prop where
  small : drawn < 2 ^ 64
  counter : c.shared.1.instances.nextCorr = UInt64.ofNat (drawn + 1)
  sound : (ticketsOf drawn c).Sound

theorem ServerTask.Fresh.idle {t : ServerTask} (h : t.Fresh) : t.stage.outgoing = none := by
  rcases h.stage with ⟨u, hu, hfresh⟩ | hb | ho | ⟨r, id, hr⟩
  · rw [hu]
    cases u with
    | view c => obtain ⟨id, paths, exclude, rfl⟩ := hfresh; cases id <;> rfl
    | enqueue c =>
      obtain ⟨ackRequested, payload, pc, result⟩ := c
      obtain ⟨rfl, rfl | ⟨id, rfl⟩⟩ := hfresh <;> rfl
    | shutdown c => obtain ⟨id, rfl⟩ := hfresh; cases id <;> rfl
    | _ => rfl
  · rw [hb]; rfl
  · rw [ho]; rfl
  · rw [hr]
    exact (Stage.idle_start 0 r id).outgoing

namespace CorrsDrawn

variable {c c' : Config (Host × List RequestEvent) ServerTask} {me : Nat} {i : Choice}

theorem of_boot {c : Config Host ServerTask} (boot : ServerBoot c) :
    CorrsDrawn 0 (c.withLog []) where
  small := by decide
  counter := by
    obtain ⟨default, config, now, hshared⟩ := boot.shared
    change c.shared.instances.nextCorr = _
    rw [hshared]
    rfl
  sound := by
    have hheld : (ticketsOf 0 (c.withLog [])).held = fun _ => none := by
      funext t
      change (c.task t).stage.outgoing.map _ = none
      rw [(boot.fresh t).idle]
      rfl
    have hinitial : ticketsOf 0 (c.withLog []) = {} := by
      rw [ticketsOf, Tickets.mk.injEq]
      exact ⟨rfl, hheld, rfl⟩
    rw [hinitial]
    exact .initial

/-- What the step does to the tickets. -/
theorem held_step (hother : ∀ t, t ≠ me → c'.task t = c.task t) (drawn : Nat) :
    (ticketsOf drawn c').held = Function.update (ticketsOf drawn c).held me
      ((c'.task me).stage.outgoing.map fun e => e.2.corr.toNat) := by
  funext t
  by_cases ht : t = me
  · subst ht
    rw [Function.update_self]
    rfl
  · rw [Function.update_of_ne ht]
    change (c'.task t).stage.outgoing.map _ = (c.task t).stage.outgoing.map _
    rw [hother t ht]

theorem step {drawn : Nat} (inv : CorrsDrawn drawn c) (guard : Unwrapped c me i)
    (hf : requestHistory.fire c me i = some c') : ∃ drawn', CorrsDrawn drawn' c' := by
  obtain ⟨hmove, hlog, hother⟩ := fire_request hf
  obtain ⟨hsmall, hcounter, hsound⟩ := inv
  have hspent : queuedCorrs c'.shared.2 =
      (((c.task me).stage.note me c.shared.1).bind RequestEvent.queuedCorr).toList ++
        queuedCorrs c.shared.2 := by
    rw [hlog, queuedCorrs_note]
  cases hmove.effect with
  | draws free held corr counter quiet =>
    have hlt : drawn + 1 < 2 ^ 64 := by
      by_contra hge
      have hfull : drawn + 1 = 2 ^ 64 := by omega
      rw [Unwrapped, hcounter, hfull] at guard
      exact guard rfl
    refine ⟨drawn + 1, hlt, ?_, ?_⟩
    · rw [counter, hcounter, ← UInt64.ofNat_one, ← UInt64.ofNat_add]
    · have hdraw : ticketsOf (drawn + 1) c' = (ticketsOf drawn c).draw me := by
        rw [ticketsOf, Tickets.mk.injEq]
        refine ⟨rfl, ?_, ?_⟩
        · refine (held_step hother drawn).trans ?_
          rw [held, Option.map_some, corr, hcounter, UInt64.toNat_ofNat_of_lt' hlt]
          rfl
        · rw [hspent, quiet]
          rfl
      rw [hdraw]
      exact hsound.draw me
  | @spends tx id msg held event counter free =>
    refine ⟨drawn, hsmall, counter.trans hcounter, ?_⟩
    have hheld : (ticketsOf drawn c).held me = some msg.corr.toNat := by
      change (c.task me).stage.outgoing.map _ = _
      rw [held]
      rfl
    have hspend : ticketsOf drawn c' = (ticketsOf drawn c).spend me msg.corr.toNat := by
      rw [ticketsOf, Tickets.mk.injEq]
      refine ⟨rfl, ?_, ?_⟩
      · refine (held_step hother drawn).trans ?_
        rw [free]
        rfl
      · rw [hspent, event]
        rfl
    rw [hspend]
    exact hsound.spend hheld
  | keeps counter held quiet =>
    refine ⟨drawn, hsmall, counter.trans hcounter, ?_⟩
    have hkeep : ticketsOf drawn c' = ticketsOf drawn c := by
      rw [ticketsOf, Tickets.mk.injEq]
      refine ⟨rfl, ?_, ?_⟩
      · refine (held_step hother drawn).trans ?_
        rw [held]
        exact Function.update_eq_self me _
      · rw [hspent, quiet]
        rfl
    rw [hkeep]
    exact hsound
  | loses counter free quiet =>
    refine ⟨drawn, hsmall, counter.trans hcounter, ?_⟩
    have hlose : ticketsOf drawn c' = (ticketsOf drawn c).setHeld me none := by
      rw [ticketsOf, Tickets.mk.injEq]
      refine ⟨rfl, ?_, ?_⟩
      · refine (held_step hother drawn).trans ?_
        rw [free]
        rfl
      · rw [hspent, quiet]
        rfl
    rw [hlose]
    exact hsound.lose me

theorem of_reach {c₀ : Config Host ServerTask} (boot : ServerBoot c₀)
    (run : requestHistory.Reach Unwrapped (c₀.withLog []) c) : ∃ drawn, CorrsDrawn drawn c := by
  induction run with
  | refl => exact ⟨0, of_boot boot⟩
  | tail _ guard fire ih =>
    obtain ⟨drawn, inv⟩ := ih
    exact inv.step guard fire

/-- Queued corrs are not `0` and not repeated. -/
theorem queuedCorrs {drawn : Nat} (inv : CorrsDrawn drawn c) :
    (queuedCorrs c.shared.2).Nodup ∧ 0 ∉ queuedCorrs c.shared.2 := by
  refine ⟨inv.sound.nodup.of_map _, fun hzero => ?_⟩
  have hpos := (inv.sound.spent_le _ (List.mem_map_of_mem hzero)).1
  exact Nat.lt_irrefl 0 hpos

end CorrsDrawn

/-- As long as the counter of corrs has not come round, the envelopes queued have different
corrs, and none has the corr `0`. -/
theorem queuedCorrs_nodup {c₀ : Config Host ServerTask}
    {c : Config (Host × List RequestEvent) ServerTask} (boot : ServerBoot c₀)
    (run : requestHistory.Reach Unwrapped (c₀.withLog []) c) :
    (queuedCorrs c.shared.2).Nodup ∧ 0 ∉ queuedCorrs c.shared.2 := by
  obtain ⟨drawn, inv⟩ := CorrsDrawn.of_reach boot run
  exact inv.queuedCorrs

instance {E : Type} : ∀ (c : Config (Host × List E) ServerTask) me i, Decidable (Unwrapped c me i) :=
  fun c _ _ => inferInstanceAs (Decidable (c.shared.1.instances.nextCorr ≠ 0))

theorem queuedCorrs_nodup_twoKeys :
    ∃ c, requestHistory.Reach Unwrapped (twoKeys.withLog []) c ∧ queuedCorrs c.shared.2 = [2, 1] ∧
      (queuedCorrs c.shared.2).Nodup ∧ 0 ∉ queuedCorrs c.shared.2 := by
  obtain ⟨c, run, hqueued⟩ := requestHistory.exists_reach Unwrapped (twoKeys.withLog []) answerTwice
    (fun c => queuedCorrs c.shared.2 = [2, 1]) (by decide +kernel)
  exact ⟨c, run, hqueued, queuedCorrs_nodup serverBoot_twoKeys run⟩

end CsmProxy
