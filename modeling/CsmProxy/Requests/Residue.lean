import CsmProxy.Requests.Answers
import CsmProxy.Requests.MapRefinement
import CsmProxy.Waiters.Residue

/-!
# No waiters stay behind

Used by the server, with simulators that echo corrs, the two tables of waiters have the corrs
of the tools that wait for a reply, and no others, whenever no task is part-way through a call
of the map (`waiters_exact`).

A reply cannot arrive between the two inserts of `register_waiter`: the corr has not been asked
for then. So a request goes out while its waiter is stored, unless a removal has failed the
waiter, which then has no record either (`Slot.DroppedClean`). The condition is carried over to
the calls of the map along the run.
-/

namespace CsmProxy

open Foundations

/-! ## A waiter whose sender was dropped -/

namespace Slot

/-- When the sender is dropped the record is gone, and none will be made. -/
def DroppedClean (s : Slot) : Prop :=
  s.oneshot = .dropped → s.recorded = false ∧ s.pc.registering = false

namespace DroppedClean

variable {k : Nat} {answers : SimToServer → Bool} {s s' : Slot}

theorem of_initial : initial.DroppedClean := fun h => by cases h

/-- The call moves on. -/
theorem move (clean : s.DroppedClean) (ho : s'.oneshot = s.oneshot)
    (hr : s.recorded = false → s.pc.registering = false →
      s'.recorded = false ∧ s'.pc.registering = false) : s'.DroppedClean := by
  intro h
  obtain ⟨hrecorded, hpc⟩ := clean (ho.symm.trans h)
  exact hr hrecorded hpc

theorem step (clean : s.DroppedClean) (core : s.Core) (rec : s.Recorded) {e : Option WaiterEvent}
    (hs : Step k answers e s s') : s'.DroppedClean := by
  have absurdRegistering : ∀ {P : Prop},
      s.pc.registering = true → s.pc.registering = false → P := by
    intro P htrue hfalse
    cases htrue.symm.trans hfalse
  cases hs with
  | connected hpc => exact clean.move rfl fun _ => absurdRegistering (by rw [hpc]; rfl)
  | insertWaiter hpc =>
    -- the call has not stored anything yet, so no sender is dropped
    obtain ⟨hw, ho, -⟩ := core.fresh (by rw [hpc]; rfl)
    intro h
    rw [show ({ s.unregister with pc := .insertInstance, waiter := true } : Slot).oneshot =
      if s.waiter = true then .dropped else s.oneshot from rfl, hw, ho] at h
    cases h
  | insertInstance hpc => exact clean.move rfl fun _ => absurdRegistering (by rw [hpc]; rfl)
  | unknown | sent | refused | reply | lost | timeout =>
    exact clean.move rfl fun hr _ => ⟨hr, rfl⟩
  | forget => exact clean.move rfl fun _ _ => ⟨rfl, rfl⟩
  | take hpc =>
    refine fun _ => ⟨?_, rfl⟩
    by_contra hr
    have hrecords := rec.records (Bool.eq_true_of_not_eq_false hr)
    rw [hpc] at hrecords
    cases hrecords
  | complete | collect | skip => exact clean.move rfl fun hr hpc => ⟨hr, hpc⟩
  | hand => exact fun h => by cases h
  | delete | pick => exact clean.move rfl fun _ hpc => ⟨rfl, hpc⟩
  | fail hr => exact fun _ => ⟨rec.taking _ hr, rec.removing _ (.inr hr)⟩
  | idle => exact clean

end DroppedClean

end Slot

/-! ## The condition -/

/-- When a request is put on the outbound queue and its corr is recorded, its waiter is still
stored. -/
def RecordsStored : Pool.Guard Host MapCall Choice := fun d n _ =>
  ∀ call, d.task n = .send call → call.pc = .trySend →
    call.msg.corr ∈ d.shared.instances.waiterInstance.keys →
    call.msg.corr ∈ d.shared.instances.waiters.keys

theorem RecordsStored.onSends : OnSends RecordsStored where
  others d n i hn call hcall := by
    rw [hcall] at hn
    cases hn
  alone d n i t l hne h call hcall hpc hmem := by
    rw [Config.setTask_of_ne hne] at hcall
    exact h call hcall hpc hmem

theorem RecordsStored.live {d : Config Host MapCall} {n : Nat} {i : Choice}
    (h : RecordsStored d n i) : RecordsLive d n i := by
  intro call hcall he hmem
  obtain ⟨-, call', hcall', hpc⟩ := noteWaiter_queued he
  cases hcall'
  exact .inl (h call hcall hpc hmem)

/-- What holds of the calls of the map in the runs that meet the condition. -/
structure CleanInv (d : Config Host MapCall) : Prop extends TablesInv d where
  dropped : ∀ k call, d.task k = .send call → (slotOf d k call).DroppedClean

theorem CleanInv.of_reach {d₀ d : Config Host MapCall} (boot : MapBoot d₀)
    (distinct : DistinctCorrs d₀) (run : mapCalls.Reach RecordsStored d₀ d) : CleanInv d := by
  refine run.invariant ⟨.of_boot boot distinct, fun k call hk => ?_⟩ ?_
  · rw [slotOf_boot boot hk]
    exact .of_initial
  · intro d n i d' inv guard hf
    refine ⟨inv.toTablesInv.step guard.live hf, fun k call' hk' => ?_⟩
    obtain ⟨call, hk, -, -, -, hstep⟩ := inv.slot_before hf hk'
    exact (inv.dropped k call hk).step (inv.core k call hk) (inv.recorded k call hk) hstep

/-! ## Corrs of the calls -/

/-- The calls of a run keep their corrs. -/
theorem sends_kept {ok : Pool.Guard Host MapCall Choice} {d₀ d : Config Host MapCall}
    (run : mapCalls.Reach ok d₀ d) {n : Nat} {call : SendCall} (hn : d₀.task n = .send call) :
    ∃ call', d.task n = .send call' ∧ call'.msg = call.msg := by
  refine @Pool.Reach.invariant _ _ _ mapCalls ok
    (fun d => ∃ call', d.task n = .send call' ∧ call'.msg = call.msg) _ _ run ⟨call, hn, rfl⟩ ?_
  rintro d me i d' ⟨call', hcall, hmsg⟩ - hf
  obtain ⟨hs, hother⟩ := fire_call hf
  by_cases hme : n = me
  · subst hme
    rw [hcall] at hs
    obtain ⟨call'', hcall'', hstep⟩ := MapCall.step_send hs
    exact ⟨call'', hcall'', (SendCall.step_args hstep).2.1.trans hmsg⟩
  · exact ⟨call', (hother n hme).trans hcall, hmsg⟩

theorem DistinctCorrs.before {ok : Pool.Guard Host MapCall Choice} {d₀ d : Config Host MapCall}
    (distinct : DistinctCorrs d) (run : mapCalls.Reach ok d₀ d) : DistinctCorrs d₀ := by
  intro k k' call call' hk hk' hcorr
  obtain ⟨last, hlast, hmsg⟩ := sends_kept run hk
  obtain ⟨last', hlast', hmsg'⟩ := sends_kept run hk'
  refine distinct k k' last last' hlast hlast' ?_
  rw [hmsg, hmsg', hcorr]

/-- The calls of the map have different corrs, all drawn already. -/
structure SendsDrawn (drawn : Nat) (d : Config Host MapCall) : Prop where
  distinct : DistinctCorrs d
  drawn : ∀ n call, d.task n = .send call → call.msg.corr.toNat ≤ drawn

theorem SendsDrawn.step {drawn drawn' : Nat} {d d' : Config Host MapCall}
    {new : Option (Nat × UInt64)} (sends : SendsDrawn drawn d) (hfrom : SendsFrom d d' new)
    (grows : drawn ≤ drawn')
    (hnew : ∀ n corr, new = some (n, corr) → drawn < corr.toNat ∧ corr.toNat ≤ drawn') :
    SendsDrawn drawn' d' where
  distinct k k' call call' hk hk' hcorr := by
    rcases hfrom k call hk with ⟨old, hold, hmsg⟩ | hdraw <;>
      rcases hfrom k' call' hk' with ⟨old', hold', hmsg'⟩ | hdraw'
    · refine sends.distinct k k' old old' hold hold' ?_
      rw [← hmsg, ← hmsg', hcorr]
    · have hle := sends.drawn k old hold
      rw [← hmsg, hcorr] at hle
      exact absurd hle (Nat.not_le_of_lt (hnew _ _ hdraw').1)
    · have hle := sends.drawn k' old' hold'
      rw [← hmsg', ← hcorr] at hle
      exact absurd hle (Nat.not_le_of_lt (hnew _ _ hdraw).1)
    · exact (Prod.mk.inj (Option.some.inj (hdraw.symm.trans hdraw'))).1
  drawn n call hn := by
    rcases hfrom n call hn with ⟨old, hold, hmsg⟩ | hdraw
    · rw [hmsg]
      exact (sends.drawn n old hold).trans grows
    · exact (hnew n _ hdraw).2

/-! ## Along a run of the server -/

namespace CorrsDrawn

variable {c c' : Config (Host × List RequestEvent) ServerTask} {drawn drawn' : Nat}

/-- The counter says how many corrs have been drawn. -/
theorem drawn_eq (corrs : CorrsDrawn drawn c) (corrs' : CorrsDrawn drawn' c')
    (hcounter : c'.shared.1.instances.nextCorr = c.shared.1.instances.nextCorr) :
    drawn' = drawn := by
  have hnat := congrArg UInt64.toNat hcounter
  rw [corrs.counter, corrs'.counter, UInt64.toNat_ofNat', UInt64.toNat_ofNat'] at hnat
  have hsmall := corrs.small
  have hsmall' := corrs'.small
  omega

theorem toNat_nextCorr (corrs : CorrsDrawn drawn c) (hwrap : c.shared.1.instances.nextCorr ≠ 0) :
    c.shared.1.instances.nextCorr.toNat = drawn + 1 := by
  have hsmall := corrs.small
  rw [corrs.counter]
  by_cases hlt : drawn + 1 < 2 ^ 64
  · exact UInt64.toNat_ofNat_of_lt' hlt
  · have hfull : drawn + 1 = 2 ^ 64 := by omega
    rw [corrs.counter, hfull] at hwrap
    exact absurd rfl hwrap

theorem drawn_next (corrs : CorrsDrawn drawn c) (corrs' : CorrsDrawn drawn' c')
    (hwrap : c.shared.1.instances.nextCorr ≠ 0)
    (hcounter : c'.shared.1.instances.nextCorr = c.shared.1.instances.nextCorr + 1) :
    drawn' = drawn + 1 := by
  have hnat := congrArg UInt64.toNat hcounter
  rw [UInt64.toNat_add, corrs.toNat_nextCorr hwrap, corrs'.counter, UInt64.toNat_ofNat',
    UInt64.toNat_one] at hnat
  have hlt : drawn + 1 < 2 ^ 64 := by
    rw [← corrs.toNat_nextCorr hwrap]
    exact UInt64.toNat_lt _
  have hsmall' := corrs'.small
  omega

end CorrsDrawn

/-- A section draws one corr at most. -/
theorem fire_counter {c c' : Config (Host × List RequestEvent) ServerTask} {me : Nat} {i : Choice}
    (hf : requestHistory.fire c me i = some c') :
    c'.shared.1.instances.nextCorr = c.shared.1.instances.nextCorr ∨
      c'.shared.1.instances.nextCorr = c.shared.1.instances.nextCorr + 1 := by
  cases (fire_request hf).1.effect with
  | draws free held corr counter quiet => exact .inr counter
  | spends held event counter free => exact .inl counter
  | keeps counter held quiet => exact .inl counter
  | loses counter free quiet => exact .inl counter

/-- The calls of the map that the server makes meet the condition. -/
structure MapKnown (c : Config (Host × List RequestEvent) ServerTask) (begun : Nat → Nat)
    (d₀ d : Config Host MapCall) (drawn : Nat) : Prop where
  uses : UsesMap RecordsStored c.erase begun d₀ d
  corrs : CorrsDrawn drawn c
  sends : SendsDrawn drawn d

/-- Before its request is queued, no envelope answers a call. -/
theorem AnswersKnown.not_first {c : Config (Host × List RequestEvent) ServerTask}
    (known : AnswersKnown c) {t k : Nat} {r : ToolRequest} {w : Waiting} {call : SendCall}
    (hst : (c.task t).stage = .calling k r w call) (hpc : call.pc = .trySend) {reply : SimToServer}
    (first : FirstAnswer c (channel t k) reply) : False := by
  obtain ⟨p, s, kind, hp, -, hcorr, hregistered, hfind⟩ := first
  obtain ⟨drawn, corrs⟩ := known.corrs
  obtain ⟨-, hsame, -⟩ := (known.calls.call t k r w call hst).registered _ kind hregistered
  have hout : (c.task t).stage.outgoing = some (call.instanceId, call.msg) := by
    have hsending : (c.task t).stage.sending = some call := by
      rw [hst]
      rfl
    rw [Stage.outgoing_of_sending hsending, SendCall.outgoing, hpc]
  have hasked := known.heard.asked p s reply hp (List.mem_of_find?_eq_some hfind) hcorr
  rw [hsame, corrs.not_asked hout] at hasked
  cases hasked

theorem MapCall.holds_of_grip {c : MapCall} {k : Nat} (h : c.grip k ≠ .free) :
    ∃ id msg pc, c = .push id msg (some pc) ∧ pc.holds = some k := by
  cases c with
  | push id msg pc =>
    rcases pc with - | (- | tx | tx | -)
    case some.forget | some.reply =>
      by_cases htx : tx = k
      · subst htx
        exact ⟨id, msg, _, rfl, rfl⟩
      · exact absurd (if_neg htx) h
    all_goals exact absurd rfl h
  | _ => exact absurd rfl h

/-- Only the handler of a stream is in a push. -/
theorem Stage.pushing_of_inCall {s : Stage} {id : String} {msg : SimToServer} {pc : PushPc}
    (h : s.inCall = some (.push id msg (some pc))) :
    ∃ sn, s = .task (.session sn) ∧ sn.pc = .push msg pc := by
  cases s with
  | task u =>
    cases u with
    | session sn =>
      obtain ⟨dialler, register, token, received, pc'⟩ := sn
      refine ⟨_, rfl, ?_⟩
      cases pc' with
      | push msg' sub => cases sub <;> cases h <;> rfl
      | removeGoodbye sub | remove sub => cases sub <;> cases h
      | _ => cases h
    | _ => cases h
  | _ => cases h

/-- A push that has taken a sender is made by the handler of a stream. -/
theorem MapEmbedded.holder {c : Config Host ServerTask} {begun : Nat → Nat}
    {d : Config Host MapCall} (he : MapEmbedded c begun d) {p n : Nat}
    (hp : (d.task p).grip n ≠ .free) :
    ∃ t s msg sub, (c.task t).stage = .task (.session s) ∧ s.pc = .push msg sub ∧
      sub.holds = some n := by
  obtain ⟨id, msg, pc, htask, hholds⟩ := MapCall.holds_of_grip hp
  rcases he.finished p with hfinished | ⟨t, j, -, -, hcall⟩ | ⟨t, k, r, w, call, rfl, hst⟩
  · rw [htask] at hfinished
    cases hfinished
  · rw [htask] at hcall
    obtain ⟨s, hs, hpc⟩ := Stage.pushing_of_inCall hcall
    exact ⟨t, s, msg, pc, hs, hpc, hholds⟩
  · cases htask.symm.trans (he.sending t k r w call hst)

namespace MapKnown

variable {c c' : Config (Host × List RequestEvent) ServerTask} {me : Nat} {i : Choice}
  {begun : Nat → Nat} {d₀ d : Config Host MapCall} {drawn : Nat}

theorem clean (known : MapKnown c begun d₀ d drawn) : CleanInv d :=
  .of_reach known.uses.boot (known.sends.distinct.before known.uses.run)
    (known.uses.run.mono fun _ _ _ => And.right)

/-- The condition is met when a tool is about to queue its request. -/
theorem stored (known : MapKnown c begun d₀ d drawn) (answers : AnswersKnown c) {t k : Nat}
    {r : ToolRequest} {w : Waiting} {call : SendCall} (hst : (c.task t).stage = .calling k r w call)
    (i : Choice) : RecordsStored d (channel t k) i := by
  intro call' htask hpc hmem
  have he := known.uses.embedded
  obtain rfl : call = call' := by
    cases htask.symm.trans (he.sending t k r w call hst)
    rfl
  have hshared : d.shared.oneshot = c.shared.1.oneshot := by
    rw [he.shared]
    rfl
  by_contra hnot
  have hw : (slotOf d (channel t k) call).waiter = false := by
    refine Bool.eq_false_of_not_eq_true fun h => hnot ?_
    exact HashMap.mem_keys_iff.mpr (Option.isSome_iff_exists.mp h)
  have hr : (slotOf d (channel t k) call).recorded = true :=
    Option.isSome_iff_exists.mpr (HashMap.mem_keys_iff.mp hmem)
  rcases (known.clean.core _ call htask).unstored hw (by simp [slotOf, hpc, SendPc.waits]) with
    hsettled | ⟨p, hp⟩
  · cases ho : d.shared.oneshot (channel t k) with
    | waiting => exact hsettled ho
    | sent via reply =>
      rw [hshared] at ho
      exact answers.not_first hst hpc (answers.waiters.sent _ via reply ho)
    | dropped =>
      rw [((known.clean.dropped _ call htask) ho).1] at hr
      cases hr
  · obtain ⟨t', s, msg, sub, hs, hsub, hholds⟩ := he.holder hp
    exact answers.not_first hst hpc (answers.waiters.held t' s msg sub _ hs hsub hholds)

theorem of_boot {c : Config Host ServerTask} (boot : ServerBoot c) :
    MapKnown (c.withLog []) (fun _ => 0) ⟨c.shared.mapPart, fun _ => .environment⟩
      ⟨c.shared.mapPart, fun _ => .environment⟩ 0 where
  uses := .of_boot boot
  corrs := .of_boot boot
  sends := ⟨fun _ _ _ _ hk => (by cases hk), fun _ _ hn => (by cases hn)⟩

theorem step (known : MapKnown c begun d₀ d drawn) (answers : AnswersKnown c)
    (guard : Echoes c me i) (hf : requestHistory.fire c me i = some c') :
    ∃ begun' d₀' d' drawn', MapKnown c' begun' d₀' d' drawn' := by
  obtain ⟨drawn', corrs'⟩ := known.corrs.step guard.1 hf
  obtain ⟨begun', d₀', d', new, uses', hfrom, hnew⟩ := known.uses.step RecordsStored.onSends
    (Pool.fire_recording hf).1 fun k r w call hst => known.stored answers hst i
  refine ⟨begun', d₀', d', drawn', uses', corrs', known.sends.step hfrom ?_ fun n corr he => ?_⟩
  · rcases fire_counter hf with hsame | hnext
    · exact (known.corrs.drawn_eq corrs' hsame).ge
    · rw [known.corrs.drawn_next corrs' guard.1 hnext]
      exact Nat.le_succ drawn
  · obtain ⟨rfl, hnext⟩ := hnew n corr he
    rw [known.corrs.drawn_next corrs' guard.1 hnext]
    have hcorr := known.corrs.toNat_nextCorr guard.1
    exact ⟨Nat.lt_of_lt_of_eq (Nat.lt_succ_self drawn) hcorr.symm, hcorr.le⟩

theorem of_reach {c₀ : Config Host ServerTask} (boot : ServerBoot c₀)
    (run : requestHistory.Reach Echoes (c₀.withLog []) c) :
    ∃ begun d₀ d drawn, MapKnown c begun d₀ d drawn := by
  induction run with
  | refl => exact ⟨_, _, _, _, of_boot boot⟩
  | tail run guard fire ih =>
    obtain ⟨begun, d₀, d, drawn, known⟩ := ih
    exact known.step (.of_reach boot run) guard fire

end MapKnown

/-! ## Between the calls -/

/-- The task is not part-way through a call of the map. -/
def Stage.betweenCalls (s : Stage) : Bool :=
  s.inCall.isNone && s.sending.all fun call => (MapCall.send call).atRest

theorem MapCall.atRest_of_finished {c : MapCall} (h : c.finished = true) : c.atRest = true := by
  cases c with
  | send call =>
    change call.pc.ended = true at h
    rw [atRest]
    cases hpc : call.pc with
    | get | await deadline | returned result => rfl
    | _ =>
      rw [hpc] at h
      cases h
  | push id msg pc =>
    cases pc with
    | none => rfl
    | some pc => cases h
  | removeIf id token pc =>
    cases pc with
    | none => rfl
    | some pc => cases h
  | insert | inserting => cases h
  | _ => rfl

theorem MapEmbedded.atRest {c : Config Host ServerTask} {begun : Nat → Nat}
    {d : Config Host MapCall} (he : MapEmbedded c begun d)
    (hrest : ∀ t, (c.task t).stage.betweenCalls = true) (n : Nat) : (d.task n).atRest = true := by
  rcases he.finished n with hfinished | ⟨t, j, -, -, hcall⟩ | ⟨t, k, r, w, call, rfl, hst⟩
  · exact MapCall.atRest_of_finished hfinished
  · have hnone := ((Bool.and_eq_true _ _).mp (hrest t)).1
    rw [hcall] at hnone
    cases hnone
  · have hsend := ((Bool.and_eq_true _ _).mp (hrest t)).2
    rw [hst] at hsend
    rw [he.sending t k r w call hst]
    exact hsend

/-- A tool waits for a reply with this corr, and none is on its way. -/
def Waits (c : Config (Host × List RequestEvent) ServerTask) (corr : UInt64) : Prop :=
  ∃ t k r w call deadline, (c.task t).stage = .calling k r w call ∧ call.msg.corr = corr ∧
    call.pc = .await deadline ∧ c.shared.1.oneshot (channel t k) = .waiting

/-- The corrs of the stored waiters, and of the recorded ones, are those that tools wait for. -/
structure WaitersExact (c : Config (Host × List RequestEvent) ServerTask) : Prop where
  stored : ∀ corr, corr ∈ c.shared.1.instances.waiters.keys ↔ Waits c corr
  recorded : ∀ corr, corr ∈ c.shared.1.instances.waiterInstance.keys ↔ Waits c corr

namespace MapKnown

variable {c : Config (Host × List RequestEvent) ServerTask} {begun : Nat → Nat}
  {d₀ d : Config Host MapCall} {drawn : Nat}

/-- A call that waits for a reply is the call of a tool that waits. -/
theorem waits_of_call (known : MapKnown c begun d₀ d drawn) {n : Nat} {call : SendCall}
    (hn : d.task n = .send call) {deadline : Nat} (hpc : call.pc = .await deadline)
    (ho : d.shared.oneshot n = .waiting) : Waits c call.msg.corr := by
  have he := known.uses.embedded
  rw [he.shared] at ho
  rcases he.finished n with hfinished | ⟨t, j, rfl, -⟩ | ⟨t, k, r, w, call', rfl, hst⟩
  · rw [hn] at hfinished
    change call.pc.ended = true at hfinished
    rw [hpc] at hfinished
    cases hfinished
  · have hno := he.noSend t j
    rw [hn] at hno
    cases hno
  · cases hn.symm.trans (he.sending t k r w call' hst)
    exact ⟨t, k, r, w, call, deadline, hst, rfl, hpc, ho⟩

/-- The call of a tool that waits has its waiter in both tables. -/
theorem stored_of_waits (known : MapKnown c begun d₀ d drawn)
    (hrest : ∀ n, (d.task n).atRest = true) {corr : UInt64} (waits : Waits c corr) :
    corr ∈ d.shared.instances.waiters.keys ∧ corr ∈ d.shared.instances.waiterInstance.keys := by
  have he := known.uses.embedded
  obtain ⟨t, k, r, w, call, deadline, hst, rfl, hpc, ho⟩ := waits
  have htask := he.sending t k r w call hst
  obtain ⟨hboth, hwaiter⟩ := known.clean.agree hrest htask
  have ho : d.shared.oneshot (channel t k) = .waiting := by
    rw [he.shared]
    exact ho
  have hw := hwaiter.mpr ⟨⟨deadline, hpc⟩, ho⟩
  exact ⟨HashMap.mem_keys_iff.mpr (Option.isSome_iff_exists.mp hw),
    HashMap.mem_keys_iff.mpr (Option.isSome_iff_exists.mp (hboth.trans hw))⟩

/-- An entry of the tables belongs to a tool that waits. -/
theorem waits_of_waiter (known : MapKnown c begun d₀ d drawn)
    (hrest : ∀ n, (d.task n).atRest = true) {n : Nat} {call : SendCall}
    (hn : d.task n = .send call) (hw : (slotOf d n call).waiter = true) :
    Waits c call.msg.corr := by
  obtain ⟨⟨deadline, hpc⟩, ho⟩ := (known.clean.agree hrest hn).2.mp hw
  exact known.waits_of_call hn hpc ho

end MapKnown

/-- While the simulators echo corrs, the two tables of waiters have the corrs that tools wait
for, and no others, whenever no task is part-way through a call of the map. -/
theorem waiters_exact {c₀ : Config Host ServerTask}
    {c : Config (Host × List RequestEvent) ServerTask} (boot : ServerBoot c₀)
    (run : requestHistory.Reach Echoes (c₀.withLog []) c)
    (hbetween : ∀ t, (c.task t).stage.betweenCalls = true) : WaitersExact c := by
  obtain ⟨begun, d₀, d, drawn, known⟩ := MapKnown.of_reach boot run
  have he := known.uses.embedded
  have hrest := he.atRest hbetween
  have hinstances : d.shared.instances = c.shared.1.instances := by
    rw [he.shared]
    rfl
  refine ⟨fun corr => ?_, fun corr => ?_⟩ <;> rw [← hinstances] <;>
    refine ⟨fun hmem => ?_, fun waits => ?_⟩
  · obtain ⟨⟨kind, tx⟩, hl⟩ := HashMap.mem_keys_iff.mp hmem
    obtain ⟨call, htask, -, rfl⟩ := known.clean.linked.registered corr kind tx hl
    exact known.waits_of_waiter hrest htask (Option.isSome_iff_exists.mpr ⟨_, hl⟩)
  · exact (known.stored_of_waits hrest waits).1
  · obtain ⟨id, hl⟩ := HashMap.mem_keys_iff.mp hmem
    obtain ⟨n, call, htask, rfl⟩ := known.clean.linked.recorded corr id hl
    -- a record is agreed on by the first table
    have hw := (known.clean.agree hrest htask).1.symm.trans (Option.isSome_iff_exists.mpr ⟨id, hl⟩)
    exact known.waits_of_waiter hrest htask hw
  · exact (known.stored_of_waits hrest waits).2

/-- The batch has queued its first request and waits for the answer. -/
def awaitFirst : List (Nat × Choice) := answerTwice.take 10

theorem waiters_exact_twoKeys :
    ∃ c, requestHistory.Reach Echoes (twoKeys.withLog []) c ∧
      (∀ t, (c.task t).stage.betweenCalls = true) ∧
      (1 : UInt64) ∈ c.shared.1.instances.waiters.keys ∧ WaitersExact c := by
  obtain ⟨c, hexec, h0, h1, hmem⟩ := requestHistory.exists_exec Echoes (twoKeys.withLog [])
    awaitFirst (fun c => (c.task 0).stage.betweenCalls = true ∧ (c.task 1).stage.betweenCalls = true ∧
      (1 : UInt64) ∈ c.shared.1.instances.waiters.keys) (by decide +kernel)
  have hnamed : ∀ e ∈ awaitFirst, e.1 < 2 := by decide
  have hbetween : ∀ t, (c.task t).stage.betweenCalls = true
    | 0 => h0
    | 1 => h1
    | t + 2 => by
      rw [Pool.task_of_exec hexec fun e he => by have := hnamed e he; omega]
      rfl
  have run := Pool.reach_of_exec hexec
  exact ⟨c, run, hbetween, hmem, waiters_exact serverBoot_twoKeys run hbetween⟩

end CsmProxy
