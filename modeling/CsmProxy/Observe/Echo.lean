import CsmProxy.Foundations.Latest
import CsmProxy.Observe.Loop
import CsmProxy.Sessions.QueueOwner
import CsmProxy.Sessions.Records

/-!
# The echo is not older than the events

A response shows the events that its call has drained and the heartbeat that it read last.
The read loop records a heartbeat before it queues the envelope, and the call reads the
heartbeat after its last drain. So every heartbeat among the events of a stream stands no
later in the stream than the one that is echoed, and the echoes of successive calls never go
back (`echo_not_older`). Eviction, polls and other streams do not matter for this.
-/

namespace CsmProxy

open Foundations

/-! ## Where events come from -/

/-- Some stream has put the envelope in a queue. -/
def FromStream (ss : Nat → Option Session) (msg : SimToServer) : Prop :=
  ∃ k s, ss k = some s ∧ msg ∈ s.queued

/-- Every envelope in a queue and every event of a call is one that a stream has queued. -/
structure Sourced (c : Config Host Task) : Prop where
  queues : ∀ id inst, c.shared.instances.inner.lookup id = some inst →
    ∀ msg ∈ inst.inbound.items, FromStream (handlers c) msg
  calls : ∀ t call, c.task t = .observe call → ∀ msg ∈ call.events, FromStream (handlers c) msg

theorem FromStream.fire {c c' : Config Host Task} {me : Nat} {i : Choice} {msg : SimToServer}
    (h : FromStream (handlers c) msg) (hf : proxy.fire c me i = some c') :
    FromStream (handlers c') msg := by
  obtain ⟨k, s, hk, hmem⟩ := h
  rcases fire_sessions hf with ⟨-, -, hh⟩ | ⟨s₁, s₁', ht, hs, hh⟩
  · exact ⟨k, s, hh ▸ hk, hmem⟩
  · by_cases hkm : k = me
    · subst hkm
      obtain rfl : s₁ = s := Option.some.inj ((Task.handler_eq_some.mpr ht).symm.trans hk)
      refine ⟨k, s₁', ?_, (Session.step_queued hs).subset hmem⟩
      rw [hh, Function.update_self]
    · refine ⟨k, s, ?_, hmem⟩
      rw [hh, Function.update_of_ne hkm]
      exact hk

theorem InstanceMap.mem_of_tryRecvInbound {m m' : InstanceMap} {id : String} {msg : SimToServer}
    (h : m.tryRecvInbound id = (some msg, m')) :
    ∃ inst, m.inner.lookup id = some inst ∧ msg ∈ inst.inbound.items := by
  unfold tryRecvInbound at h
  split at h
  · cases h
  · rename_i inst hl
    have hhead : inst.inbound.items.head? = some msg := congrArg Prod.fst h
    exact ⟨inst, hl, List.mem_of_head? hhead⟩

/-- The events of a call grow by what it takes from a queue. -/
theorem ObserveCall.Section.events {me : Nat} {h h' : Host} {c c' : ObserveCall}
    (hs : Section me h c h' c') {msg : SimToServer} (hmem : msg ∈ c'.events) :
    msg ∈ c.events ∨ ∃ inst, h.instances.inner.lookup c.id = some inst ∧
      msg ∈ inst.inbound.items := by
  cases hs with
  | pop hpc hrecv =>
    obtain ⟨inst, hl, hhead⟩ := InstanceMap.mem_of_tryRecvInbound hrecv
    dsimp only at hmem
    split at hmem
    · rcases List.mem_append.mp hmem with hold | hnew
      · exact .inl hold
      · obtain rfl := List.mem_singleton.mp hnew
        exact .inr ⟨inst, hl, hhead⟩
    · exact .inl hmem
  | _ => exact .inl hmem

/-- A call comes out of a section of the same call. -/
theorem observe_of_fire {c c' : Config Host Task} {t : Nat} {i : Choice} {call' : ObserveCall}
    (hf : proxy.fire c t i = some c') (ht : c'.task t = .observe call') :
    ∃ call, c.task t = .observe call ∧
      ObserveCall.Section t c.shared call c'.shared call' := by
  obtain ⟨hs, -⟩ := fire_task hf
  rw [ht] at hs
  by_cases hobs : ∃ call, c.task t = .observe call
  · obtain ⟨call, hobs⟩ := hobs
    rw [hobs] at hs
    obtain ⟨⟨g, call₁⟩, hstep, he⟩ := Option.map_eq_some_iff.mp hs
    cases he
    exact ⟨call, hobs, ObserveCall.step_cases hstep⟩
  · have hnot := (Task.step_pops hs fun call h => hobs ⟨call, h⟩).2
    exact absurd rfl (hnot call')

namespace Sourced

/-- What a section of a handler adds to a queue, the handler has queued. -/
theorem of_session {c c' : Config Host Task} (h : Sourced c) {me : Nat} {i : Choice}
    {s s' : Session} (locals : s.Local)
    (hs : s.step c.shared i = some (c'.shared, s'))
    (hf : proxy.fire c me i = some c')
    (hh : handlers c' = Function.update (handlers c) me (some s')) {id : String} {inst' : Instance}
    (hl : c'.shared.instances.inner.lookup id = some inst') {msg : SimToServer}
    (hmem : msg ∈ inst'.inbound.items) : FromStream (handlers c') msg := by
  have hold : ∀ inst, c.shared.instances.inner.lookup id = some inst →
      msg ∈ inst.inbound.items → FromStream (handlers c') msg :=
    fun inst hl' hmem' => (h.queues id inst hl' msg hmem').fire hf
  rcases Session.step_cases hs with ⟨hi, -, -⟩ | ⟨_, -, hmap, -⟩ | ⟨sent, hpc, hmap, hnext⟩ |
    ⟨-, hmap, -⟩ | ⟨hpc, hmap, -⟩ | ⟨hb, _, hpc, hmap, -⟩ | ⟨-, hmap, -, -, -, -⟩
  · rw [hi] at hl
    exact hold inst' hl hmem
  · rw [hmap] at hl
    exact hold inst' hl hmem
  · rw [hmap] at hl
    obtain ⟨inst, hl', -, hitems⟩ := enqueueInbound_items hl
    rcases hitems with hitems | ⟨-, hsub⟩
    · rw [hitems] at hmem
      exact hold inst hl' hmem
    · rcases List.mem_append.mp (hsub.subset hmem) with hmem | hmem
      · exact hold inst hl' hmem
      · obtain rfl := List.mem_singleton.mp hmem
        obtain ⟨front, hfront⟩ := locals.current msg (by rw [Session.current, hpc])
        have hcur : s'.current = none := hnext ▸ (Session.afterPush_entered s msg).2.2
        refine ⟨me, s', by rw [hh, Function.update_self], ?_⟩
        rw [Session.queued_of_none hcur, hnext]
        change msg ∈ s.received
        rw [hfront]
        exact List.mem_append_right _ List.mem_cons_self
  · rw [hmap] at hl
    exact hold inst' hl hmem
  · rw [hmap] at hl
    change Finmap.lookup id (c.shared.instances.inner.insert _ _) = some inst' at hl
    rw [HashMap.lookup_insert_ite] at hl
    split at hl
    · obtain rfl := Option.some.inj hl
      exact absurd hmem List.not_mem_nil
    · exact hold inst' hl hmem
  · rw [hmap] at hl
    obtain ⟨inst, hl', heq⟩ := HashMap.of_lookup_modify hl
    refine hold inst hl' ?_
    rcases heq with rfl | ⟨-, rfl⟩
    · exact hmem
    · split at hmem <;> exact hmem
  · rw [hmap] at hl
    exact hold inst' (InstanceMap.lookup_removeEntry hl).1 hmem

theorem of_boot {c : Config Host Task} (h : Boot c) : Sourced c := by
  obtain ⟨default, config, now, hshared⟩ := h.shared
  refine ⟨fun id inst hl => ?_, fun t call ht msg hmem => ?_⟩
  · rw [hshared] at hl
    exact absurd (hl.symm.trans (HashMap.lookup_empty id)) (by simp)
  · have hf := h.fresh t
    rw [ht] at hf
    obtain ⟨id, spec, rfl⟩ := hf
    exact absurd hmem List.not_mem_nil

/-- Every step keeps the sources. -/
theorem fire {c c' : Config Host Task} {me : Nat} {i : Choice} (h : Sourced c)
    (inv : SessionsInv c.shared.instances (handlers c)) (hf : proxy.fire c me i = some c') :
    Sourced c' := by
  obtain ⟨-, hother⟩ := fire_task hf
  refine ⟨fun id inst' hl msg hmem => ?_, fun t call ht msg hmem => ?_⟩
  · rcases fire_sessions hf with ⟨-, hk, -⟩ | ⟨s, s', ht, hstep, hh⟩
    · obtain ⟨inst, ho, hkeeps⟩ := InstanceMap.exists_of_rel (hk.entry id) hl
      exact (h.queues id inst ho msg (hkeeps.inbound.subset hmem)).fire hf
    · have hlocal : s.Local := inv.locals me s (Task.handler_eq_some.mpr ht)
      exact h.of_session hlocal hstep hf hh hl hmem
  · by_cases htm : t = me
    · subst htm
      obtain ⟨call₀, hobs, hsection⟩ := observe_of_fire hf ht
      rcases hsection.events hmem with hold | ⟨inst, hl, hitem⟩
      · exact (h.calls t call₀ hobs msg hold).fire hf
      · exact (h.queues call₀.id inst hl msg hitem).fire hf
    · rw [hother t htm] at ht
      exact (h.calls t call ht msg hmem).fire hf

theorem of_reach {ok : Pool.Guard Host Task Choice} {c₀ c : Config Host Task} (boot : Boot c₀)
    (run : proxy.Reach ok c₀ c) : Sourced c := by
  induction run with
  | refl => exact of_boot boot
  | tail hrun _ hf ih => exact ih.fire (SessionsInv.of_reach boot hrun) hf

end Sourced

/-! ## The echo -/

/-- The UI state that a heartbeat reports. -/
def uiOf (hb : Heartbeat) : HeartbeatUi :=
  ⟨some hb.framebufferGeneration, hb.activity, hb.readerSpine, hb.readerPage⟩

theorem heartbeatUi_of_lookup {m : InstanceMap} {id : String} {inst : Instance}
    (hl : m.inner.lookup id = some inst) :
    heartbeatUi m id = inst.lastHeartbeat.elim {} uiOf := by
  unfold heartbeatUi InstanceMap.get
  rw [hl]
  cases hlast : inst.lastHeartbeat <;> simp [hlast, uiOf]

/-- From `c` to `c'` the call of task `t` answers `reply`. Stream `k`, at `s`, holds the
entry of the instance. -/
structure Answers (c c' : Config Host Task) (t k : Nat) (s : Session) (reply : ObserveReply) :
    Prop where
  fires : ∃ i, proxy.fire c t i = some c'
  answer : ∃ call, c'.task t = .observe call ∧ call.pc = .returned (.ok reply)
  stream : c.task k = .session s
  holds : ∃ inst, c.shared.instances.inner.lookup reply.instanceId = some inst ∧
    s.Owns reply.instanceId inst

/-- The response echoes the heartbeat at position `m` of the stream. -/
def EchoesAt (s : Session) (reply : ObserveReply) (m : Nat) : Prop :=
  ∃ hb, Latest heartbeatOf s.recorded m hb ∧ reply.ui = uiOf hb

/-- What `reply` shows, when stream `k` is at `s`. -/
structure NotOlder (c : Config Host Task) (k : Nat) (s : Session) (reply : ObserveReply) :
    Prop where
  /-- An event is one that this stream has queued, or it comes from another stream. -/
  source : ∀ event ∈ reply.events, event ∈ s.queued ∨
    ∃ j s', j ≠ k ∧ c.task j = .session s' ∧ event ∈ s'.queued
  /-- No heartbeat that this stream has queued stands behind the one that is echoed. -/
  newest : ∀ n, s.queued[n]?.bind heartbeatOf ≠ none → ∃ m, n ≤ m ∧ EchoesAt s reply m
  /-- Nothing but a heartbeat of this stream is echoed. -/
  echoed : reply.ui = {} ∨ ∃ m, EchoesAt s reply m
  /-- Positions in the queued and in the recorded messages are positions in the stream. -/
  position : s.queued <+: s.recorded ∧ s.recorded <+: s.received

/-- A call answers from its last section only. -/
theorem ObserveCall.Section.answer {me : Nat} {h h' : Host} {c c' : ObserveCall}
    {reply : ObserveReply} (hs : Section me h c h' c') (hpc : c'.pc = .returned (.ok reply)) :
    ∃ waiting matched, c.pc = .reply waiting matched ∧ reply =
      { instanceId := c.id
        events := c.events
        ui := heartbeatUi h.instances c.id
        matched := if waiting then some matched else none
        timedOut := if waiting then some (!matched) else none } := by
  cases hs with
  | reply hc =>
    obtain rfl := Except.ok.inj (ObservePc.returned.inj hpc)
    exact ⟨_, _, hc, rfl⟩
  | pop hc => exact absurd (hc.symm.trans hpc) (by simp)
  | drained hc =>
    dsimp only [afterDrain] at hpc
    split at hpc
    · cases hpc
    · split at hpc <;> cases hpc
  | _ => cases hpc

namespace Answers

variable {c c' : Config Host Task} {t k : Nat} {s : Session} {reply : ObserveReply}

theorem call (h : Answers c c' t k s reply) : ∃ call, c.task t = .observe call ∧
    reply.instanceId = call.id ∧ reply.events = call.events ∧
      reply.ui = heartbeatUi c.shared.instances reply.instanceId := by
  obtain ⟨i, hf⟩ := h.fires
  obtain ⟨call', ht, hpc⟩ := h.answer
  obtain ⟨call, hcall, hsection⟩ := observe_of_fire hf ht
  obtain ⟨waiting, matched, -, rfl⟩ := hsection.answer hpc
  exact ⟨call, hcall, rfl, rfl, rfl⟩

/-- The heartbeat that is echoed is the last one recorded. -/
theorem ui_eq (h : Answers c c' t k s reply) (inv : RecordInv c.shared.instances (handlers c)) :
    reply.ui = s.beats.getLast?.elim {} uiOf := by
  obtain ⟨-, -, -, -, hui⟩ := h.call
  obtain ⟨inst, hl, ho⟩ := h.holds
  have hlatest : inst.lastHeartbeat = s.beats.getLast? :=
    inv.latest k s _ inst (Task.handler_eq_some.mpr h.stream) ho.entered hl ho.token
  rw [hui, heartbeatUi_of_lookup hl, hlatest]

theorem echoesAt (h : Answers c c' t k s reply)
    (inv : RecordInv c.shared.instances (handlers c)) {m : Nat} {hb : Heartbeat}
    (hm : Latest heartbeatOf s.recorded m hb) : EchoesAt s reply m := by
  have hlast : s.beats.getLast? = some hb := exists_latest_iff.mp ⟨m, hm⟩
  refine ⟨hb, hm, ?_⟩
  rw [h.ui_eq inv, hlast]
  rfl

/-- A recorded heartbeat does not stand behind the one that is echoed. -/
theorem exists_echoesAt (h : Answers c c' t k s reply)
    (inv : RecordInv c.shared.instances (handlers c)) {n : Nat}
    (hn : s.recorded[n]?.bind heartbeatOf ≠ none) : ∃ m, n ≤ m ∧ EchoesAt s reply m := by
  obtain ⟨m, hb, hm, hle⟩ := exists_latest_of_carries hn
  exact ⟨m, hle, h.echoesAt inv hm⟩

theorem notOlder (h : Answers c c' t k s reply) (src : Sourced c)
    (inv : RecordInv c.shared.instances (handlers c)) : NotOlder c k s reply where
  source event hmem := by
    obtain ⟨call, hcall, -, hevents, -⟩ := h.call
    rw [hevents] at hmem
    obtain ⟨j, s', hj, hqueued⟩ := src.calls t call hcall event hmem
    by_cases hjk : j = k
    · subst hjk
      obtain rfl : s = s' := Task.session.inj (h.stream.symm.trans (Task.handler_eq_some.mp hj))
      exact .inl hqueued
    · exact .inr ⟨j, s', hjk, Task.handler_eq_some.mp hj, hqueued⟩
  newest n hn := by
    apply h.exists_echoesAt inv
    rw [carries_of_grown s.queued_prefix_recorded hn]
    exact hn
  echoed := by
    cases hlast : s.beats.getLast? with
    | none =>
      refine .inl ?_
      rw [h.ui_eq inv, hlast]
      rfl
    | some hb =>
      obtain ⟨m, hm⟩ := exists_latest_iff.mpr hlast
      exact .inr ⟨m, h.echoesAt inv hm⟩
  position := ⟨s.queued_prefix_recorded, s.recorded_prefix_received⟩

end Answers

/-- **The echo is not older than the events.** Two calls are answered one after the other
while one stream holds the entry of their instance. In every schedule of the proxy no
heartbeat among the events of either stands behind the one that it echoes, and the second
call does not go back behind the first. -/
theorem echo_not_older {c₀ c₁ c₁' c₂ c₂' : Config Host Task} {t₁ t₂ k : Nat} {s₁ s₂ : Session}
    {reply₁ reply₂ : ObserveReply} (boot : Boot c₀) (before : proxy.Reach Pool.anyStep c₀ c₁)
    (first : Answers c₁ c₁' t₁ k s₁ reply₁) (between : proxy.Reach Pool.anyStep c₁' c₂)
    (second : Answers c₂ c₂' t₂ k s₂ reply₂) :
    NotOlder c₁ k s₁ reply₁ ∧ NotOlder c₂ k s₂ reply₂ ∧ s₁.recorded <+: s₂.recorded ∧
      ∀ m₁, EchoesAt s₁ reply₁ m₁ → ∃ m₂, m₁ ≤ m₂ ∧ EchoesAt s₂ reply₂ m₂ := by
  obtain ⟨i, hf⟩ := first.fires
  have step : proxy.Reach Pool.anyStep c₁ c₁' := .tail .refl trivial hf
  have run : proxy.Reach Pool.anyStep c₁ c₂ := step.trans between
  have reach : proxy.Reach Pool.anyStep c₀ c₂ := before.trans run
  have hgrow : s₁.recorded <+: s₂.recorded := by
    obtain ⟨s, hs, hgrow⟩ := recorded_of_reach boot before run first.stream
    obtain rfl : s = s₂ := Task.session.inj (hs.symm.trans second.stream)
    exact hgrow
  have inv₂ := RecordInv.of_reach boot reach
  refine ⟨?_, ?_, hgrow, ?_⟩
  · exact first.notOlder (.of_reach boot before) (.of_reach boot before)
  · exact second.notOlder (.of_reach boot reach) inv₂
  · rintro m₁ ⟨hb, hm₁, -⟩
    have hcarries : s₁.recorded[m₁]?.bind heartbeatOf ≠ none := by
      rw [hm₁.carries]
      exact Option.some_ne_none hb
    apply second.exists_echoesAt inv₂
    rw [carries_of_grown hgrow hcarries]
    exact hcarries

/-! ## Two calls -/

def homeBeat : Heartbeat := { activity := "Home", framebufferGeneration := 1 }

def readerBeat : Heartbeat := { activity := "EpubReader", framebufferGeneration := 2 }

def beatMessage (hb : Heartbeat) : SimToServer := { payload := some (.heartbeat hb) }

/-- The stream after its first heartbeat, and while it works on the second. -/
def atHome : Session := ⟨.external, { instanceId := "a" }, 1, [beatMessage homeBeat], .next⟩

def atReader : Session :=
  ⟨.external, { instanceId := "a" }, 1, [beatMessage homeBeat, beatMessage readerBeat],
    .push (beatMessage readerBeat) .complete⟩

def homeReply : ObserveReply := ⟨"a", [beatMessage homeBeat], uiOf homeBeat, none, none⟩

def readerReply : ObserveReply := ⟨"a", [], uiOf readerBeat, none, none⟩

/-- A call for `a` that has answered. -/
def answeredCall (reply : ObserveReply) : ObserveCall :=
  ⟨none, .returned (.ok reply), "a", false, reply.events, none, 0⟩

/-- Stream `0` is at `s`, and the entry of `a` holds its token. -/
def StreamAt (s : Session) (c : Config Host Task) : Prop :=
  c.task 0 = .session s ∧
    (c.shared.instances.inner.lookup "a").map (fun inst => inst.token) = some s.token

instance (s : Session) (c : Config Host Task) : Decidable (StreamAt s c) :=
  inferInstanceAs (Decidable (_ ∧ _))

theorem StreamAt.answers {s : Session} {c c' : Config Host Task} {t : Nat} {reply : ObserveReply}
    (h : StreamAt s c) (inv : SessionsInv c.shared.instances (handlers c)) (hs : s.HasToken)
    (hid : reply.instanceId = "a") (hf : proxy.fire c t .run = some c')
    (ht : c'.task t = .observe (answeredCall reply)) : Answers c c' t 0 s reply := by
  obtain ⟨hstream, hentry⟩ := h
  obtain ⟨inst, hl, htok⟩ := Option.map_eq_some_iff.mp hentry
  have ho : s.Owns "a" inst :=
    inv.owns_of_token (Task.handler_eq_some.mpr hstream) hs hl htok
  exact ⟨⟨.run, hf⟩, ⟨_, ht, rfl⟩, hstream, inst, hid ▸ hl, hid ▸ ho⟩

/-- The first call drains the first heartbeat. The second one is answered when the next
heartbeat is recorded and not yet queued. -/
theorem echo_not_older_two : ∃ c₁ c₂ : Config Host Task,
    NotOlder c₁ 0 atHome homeReply ∧ NotOlder c₂ 0 atReader readerReply ∧
      atHome.recorded <+: atReader.recorded ∧
      ∀ m₁, EchoesAt atHome homeReply m₁ → ∃ m₂, m₁ ≤ m₂ ∧ EchoesAt atReader readerReply m₂ := by
  have hboot : Boot (bootWith {} [externalStream, .observe (.start (some "a") none),
      .observe (.start (some "a") none)]) := by
    refine boot_bootWith fun t ht => ?_
    simp only [List.mem_cons, List.not_mem_nil, or_false] at ht
    rcases ht with rfl | rfl | rfl
    · rfl
    · exact ⟨some "a", none, rfl⟩
    · exact ⟨some "a", none, rfl⟩
  obtain ⟨c₁, c₁', before, hat₁, hf₁, ht₁, hnext⟩ := proxy.exists_fire Pool.anyStep
    (bootWith {} [externalStream, .observe (.start (some "a") none),
      .observe (.start (some "a") none)])
    [(0, registerAs "a"), (0, .run), (0, .run), (0, .item (.message (beatMessage homeBeat))),
      (0, .run), (0, .run), (0, .run), (0, .run), (1, .run), (1, .run), (1, .run), (1, .run)]
    1 .run (StreamAt atHome)
    (fun c => c.task 1 = .observe (answeredCall homeReply) ∧
      (proxy.exec Pool.anyStep c
        [(0, .item (.message (beatMessage readerBeat))), (0, .run), (0, .run), (2, .run),
          (2, .run), (2, .run)]).any (fun d => StreamAt atReader d ∧
            (proxy.fire d 2 .run).any (fun d' =>
              d'.task 2 = .observe (answeredCall readerReply)) = true) = true)
    (by decide +kernel)
  obtain ⟨c₂, c₂', between, hat₂, hf₂, ht₂⟩ := proxy.exists_fire Pool.anyStep c₁'
    [(0, .item (.message (beatMessage readerBeat))), (0, .run), (0, .run), (2, .run), (2, .run),
      (2, .run)]
    2 .run (StreamAt atReader) (fun d => d.task 2 = .observe (answeredCall readerReply)) hnext
  have first : Answers c₁ c₁' 1 0 atHome homeReply :=
    hat₁.answers (.of_reach hboot before) trivial rfl hf₁ ht₁
  have step : proxy.Reach Pool.anyStep c₁ c₁' := .tail .refl trivial hf₁
  have reach : proxy.Reach Pool.anyStep _ c₂ := before.trans (step.trans between)
  have second : Answers c₂ c₂' 2 0 atReader readerReply :=
    hat₂.answers (.of_reach hboot reach) trivial rfl hf₂ ht₂
  exact ⟨c₁, c₂, echo_not_older hboot before first between second⟩

end CsmProxy
