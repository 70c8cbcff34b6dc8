import CsmProxy.Requests.Calls

/-!
# A tool reads the answer to its own request

While the simulators echo corrs, a tool that waits reads a reply that was sent on the very
stream on whose outbound channel its request was queued, and the first one there that
answers it (`reads_own_answer`).

A stored waiter has not been answered by what the streams have handled
(`WaitersKnown.unanswered`): its corr is fresh when it is stored, and the first answer takes
it. So the envelope that a push hands over is the first answer of its stream.
-/

namespace CsmProxy

open Foundations

/-- Does the envelope answer a request of this corr and kind? -/
def answers (corr : UInt64) (kind : WaitKind) (msg : SimToServer) : Bool :=
  msg.corr = corr && InstanceMap.waiterMatches kind msg

/-- What the read loop has looked up a waiter for, while it reads. -/
def Session.handled (s : Session) : List SimToServer :=
  match s.pc with
  | .owns (.message _) | .heartbeat _ _ | .push _ .complete => s.received.dropLast
  | .leaving | .remove _ | .ended => []
  | _ => s.received

theorem Session.handled_sublist (s : Session) : s.handled.Sublist s.received := by
  unfold handled
  split
  · exact List.dropLast_sublist _
  · exact List.dropLast_sublist _
  · exact List.dropLast_sublist _
  · exact List.nil_sublist _
  · exact List.nil_sublist _
  · exact List.nil_sublist _
  · exact List.Sublist.refl _

/-- A message is handled when its waiter is looked up. -/
theorem Session.step_handled {h h' : Host} {s s' : Session} {i : Choice} (known : s.Local)
    (hs : s.step h i = some (h', s')) {msg : SimToServer} (hmsg : msg ∈ s'.handled) :
    msg ∈ s.handled ∨ s.pc = .push msg .complete := by
  obtain ⟨dialler, register, token, received, pc⟩ := s
  cases step_section hs with
  | @accept item hpc hdial =>
    obtain rfl : pc = .first := hpc
    refine .inl ?_
    cases item with
    | message msg' =>
      simp only [Session.accept] at hmsg
      repeat' split at hmsg
      all_goals exact hmsg
    | error err => exact hmsg
    | closed => exact hmsg
  | @read msg' hpc =>
    obtain rfl : pc = .next := hpc
    change msg ∈ (received ++ [msg']).dropLast at hmsg
    rw [List.dropLast_concat] at hmsg
    exact .inl hmsg
  | @owned item hpc =>
    obtain rfl : pc = .owns item := hpc
    cases item with
    | message msg' =>
      simp only [dispatch] at hmsg
      split at hmsg <;> exact .inl hmsg
    | error err => cases hmsg
    | closed => cases hmsg
  | closed hpc | replaced hpc | leave hpc => cases hmsg
  | @push msg' sub _ out hpc call =>
    obtain rfl : pc = .push msg' sub := hpc
    have hreceived : msg ∈ received := (handled_sublist _).subset hmsg
    cases sub with
    | complete =>
      obtain ⟨front, hfront⟩ := known.current msg' rfl
      obtain rfl : received = front ++ [msg'] := hfront
      rcases List.mem_append.mp hreceived with hold | hnew
      · refine .inl ?_
        change msg ∈ (front ++ [msg']).dropLast
        rw [List.dropLast_concat]
        exact hold
      · rw [List.mem_singleton.mp hnew]
        exact .inr rfl
    | _ => exact .inl hreceived
  | @removeGoodbye sub _ _ out hpc =>
    obtain rfl : pc = .removeGoodbye sub := hpc
    cases out with
    | none => cases hmsg
    | some sub' => exact .inl hmsg
  | @remove sub _ _ out hpc =>
    cases out <;> cases hmsg
  | allocToken hpc | insert hpc | failed hpc | heartbeat hpc =>
    obtain rfl : pc = _ := hpc
    exact .inl hmsg

/-- The envelope is the first answer, on some stream, to the request that registered the
waiter `tx`. -/
def FirstAnswer (c : Config (Host × List RequestEvent) ServerTask) (tx : Nat)
    (reply : SimToServer) : Prop :=
  ∃ p s kind, (c.task p).stage = .task (.session s) ∧ s.HasToken ∧ reply.corr ≠ 0 ∧
    .registered tx reply.corr kind ∈ c.shared.2 ∧
    s.received.find? (answers reply.corr kind) = some reply

/-- What is known of the waiters and of the replies on their way. -/
structure WaitersKnown (c : Config (Host × List RequestEvent) ServerTask) : Prop where
  registered : ∀ corr kind tx, c.shared.1.instances.waiters.lookup corr = some (kind, tx) →
    .registered tx corr kind ∈ c.shared.2
  unanswered : ∀ corr kind tx p s msg,
    c.shared.1.instances.waiters.lookup corr = some (kind, tx) → corr ≠ 0 →
    (c.task p).stage = .task (.session s) → msg ∈ s.handled → answers corr kind msg = false
  held : ∀ p s msg sub tx, (c.task p).stage = .task (.session s) → s.pc = .push msg sub →
    sub.holds = some tx → FirstAnswer c tx msg
  sent : ∀ tx via msg, c.shared.1.oneshot tx = .sent via msg → FirstAnswer c tx msg

/-- A stream keeps what it has, in every step of the server. -/
theorem fire_stream {c c' : Config (Host × List RequestEvent) ServerTask} {me p : Nat} {i : Choice}
    {s : Session} (hf : requestHistory.fire c me i = some c')
    (hp : (c.task p).stage = .task (.session s)) (htoken : s.HasToken) :
    ∃ s', (c'.task p).stage = .task (.session s') ∧ s.Keeps s' := by
  obtain ⟨hs, hother⟩ := fire_stage (Pool.fire_recording hf).1
  by_cases hpm : p = me
  · subst hpm
    have hmine : Stage.Section p c.shared.1 i c'.shared.1 (c.task p).stage (c'.task p).stage := hs
    rw [hp] at hmine
    generalize hst : (c'.task p).stage = st at hmine
    generalize c'.shared.1 = h' at hmine
    cases hmine with
    | task noSend step =>
      obtain ⟨s', rfl, hstep⟩ := Task.step_session step
      rcases Session.step_keeps hstep with ⟨-, hkeeps⟩ | ⟨hno, -⟩
      · exact ⟨s', rfl, hkeeps⟩
      · exact absurd htoken hno
  · have hsame : c'.task p = c.task p := hother p hpm
    rw [hsame]
    exact ⟨s, hp, htoken, rfl, rfl, List.prefix_refl _⟩

theorem Session.Keeps.find? {s s' : Session} (hkeeps : s.Keeps s') {good : SimToServer → Bool}
    {msg : SimToServer} (h : s.received.find? good = some msg) :
    s'.received.find? good = some msg := by
  obtain ⟨rest, hrest⟩ := hkeeps.received
  rw [← hrest, List.find?_append, h]
  rfl

/-- The first answer stays the first. -/
theorem FirstAnswer.step {c c' : Config (Host × List RequestEvent) ServerTask} {me : Nat}
    {i : Choice} {tx : Nat} {reply : SimToServer} (first : FirstAnswer c tx reply)
    (hf : requestHistory.fire c me i = some c') : FirstAnswer c' tx reply := by
  obtain ⟨p, s, kind, hp, htoken, hcorr, hregistered, hfind⟩ := first
  obtain ⟨s', hp', hkeeps⟩ := fire_stream hf hp htoken
  refine ⟨p, s', kind, hp', hkeeps.hasToken, hcorr, ?_, hkeeps.find? hfind⟩
  rw [(Pool.fire_recording hf).2]
  exact List.mem_append_right _ hregistered

/-! ## One section -/

theorem EnqueuePc.step_waiters (ackRequested : Bool) (payload : ServerPayload) (h : Host)
    (pc : EnqueuePc) : SameWaiters h (pc.step ackRequested payload h).1 := by
  have hsection := step_section ackRequested payload h pc
  generalize (pc.step ackRequested payload h).1 = g at hsection ⊢
  generalize (pc.step ackRequested payload h).2 = out at hsection
  cases hsection with
  | queued sent =>
    obtain ⟨hw, hi, -⟩ := InstanceMap.trySend_frame sent
    exact ⟨hw, hi, rfl⟩
  | _ => exact ⟨rfl, rfl, rfl⟩

/-- A waiter is stored by the call that is at this section. -/
theorem SendCall.note_of_registers {me : Nat} {h h' : Host} {c c' : SendCall} {i : Choice}
    (hs : c.step me h i = some (h', c')) {corr : UInt64} {kind : WaitKind} {tx : Nat}
    (hl : h'.instances.waiters.lookup corr = some (kind, tx)) :
    h.instances.waiters.lookup corr = some (kind, tx) ∨
      (c.note me h = some (.registered tx corr kind) ∧ c.pc = .insertWaiter ∧ c.msg.corr = corr) := by
  by_cases hpc : c.pc = .insertWaiter
  · rcases step_registers hs hl with hold | ⟨rfl, rfl, rfl⟩
    · exact .inl hold
    · exact .inr ⟨by rw [note, hpc], hpc, rfl⟩
  · cases step_section hs with
    | insertWaiter pc => exact absurd pc hpc
    | @queued instances _ sent =>
      change instances.waiters.lookup corr = _ at hl
      rw [(InstanceMap.trySend_frame sent).1] at hl
      exact .inl hl
    | take _ =>
      rw [Host.dropSender_instances] at hl
      exact .inl (HashMap.of_lookup_erase hl)
    | _ => exact .inl hl

/-- A push that holds a sender held it before, or has taken it from the table. -/
theorem Session.step_held {h h' : Host} {s s' : Session} {i : Choice}
    (hs : s.step h i = some (h', s')) {msg : SimToServer} {sub : PushPc} {tx : Nat}
    (hpc : s'.pc = .push msg sub) (htx : sub.holds = some tx) :
    (∃ sub₀, s.pc = .push msg sub₀ ∧ sub₀.holds = some tx) ∨
      (s.pc = .push msg .complete ∧ msg.corr ≠ 0 ∧
        ∃ kind, h.instances.waiters.lookup msg.corr = some (kind, tx) ∧
          InstanceMap.waiterMatches kind msg = true) := by
  obtain ⟨dialler, register, token, received, pc⟩ := s
  cases step_section hs with
  | @accept item hpc' hdial =>
    cases item with
    | message msg' =>
      simp only [Session.accept] at hpc
      repeat' split at hpc
      all_goals cases hpc
    | error err => cases hpc
    | closed => cases hpc
  | @owned item hpc' =>
    simp only [dispatch] at hpc
    repeat' split at hpc
    all_goals cases hpc
    cases htx
  | heartbeat hpc' =>
    cases hpc
    cases htx
  | @push msg' sub₀ _ out hpc' call =>
    obtain rfl : pc = .push msg' sub₀ := hpc'
    cases out with
    | none =>
      simp only [Option.elim_none, afterPush] at hpc
      split at hpc <;> cases hpc
    | some sub' =>
      cases hpc
      have hout : (sub₀.step register.instanceId msg h).2 = some sub := congrArg Prod.snd call
      rcases PushPc.step_holds hout htx with hold | ⟨rfl, htaken⟩
      · exact .inl ⟨sub₀, rfl, hold⟩
      · exact .inr ⟨rfl, htaken⟩
  | @removeGoodbye sub₀ _ _ out | @remove sub₀ _ _ out =>
    cases out <;> cases hpc
  | allocToken | insert | closed | failed | read | replaced | leave => cases hpc

/-- What a handler's section does to the stored waiters: it takes one at most, and the envelope
it works on does not answer those that are left. -/
theorem Session.step_waiters {h h' : Host} {s s' : Session} {i : Choice}
    (hs : s.step h i = some (h', s')) {corr : UInt64} {kind : WaitKind} {tx : Nat}
    (hl : h'.instances.waiters.lookup corr = some (kind, tx)) :
    h.instances.waiters.lookup corr = some (kind, tx) ∧
      ∀ msg, s.pc = .push msg .complete → corr ≠ 0 → answers corr kind msg = false := by
  have hother : ∀ {pc : SessionPc}, s.pc = pc → (∀ msg, pc ≠ .push msg .complete) →
      ∀ msg, s.pc = .push msg .complete → corr ≠ 0 → answers corr kind msg = false :=
    fun hpc hne msg hp => absurd (hpc.symm.trans hp) (hne msg)
  cases step_section hs with
  | @push msg sub _ out hpc call =>
    obtain rfl : (sub.step s.register.instanceId msg h).1 = h' := congrArg Prod.fst call
    have hold := PushPc.step_registers hl
    refine ⟨hold, fun msg' hp hcorr => ?_⟩
    obtain ⟨rfl, rfl⟩ := SessionPc.push.inj (hpc.symm.trans hp)
    -- the waiter would have been taken
    by_contra hans
    rw [Bool.not_eq_false, answers, Bool.and_eq_true, decide_eq_true_eq] at hans
    obtain ⟨rfl, hmatch⟩ := hans
    have htaken := InstanceMap.takeMatching_of_lookup hcorr hold hmatch
    change (h.instances.takeMatching msg).2.waiters.lookup msg.corr = _ at hl
    rw [InstanceMap.lookup_takeMatching, if_pos ⟨by rw [htaken]; rfl, rfl⟩] at hl
    cases hl
  | removeGoodbye hpc call | remove hpc call =>
    exact ⟨RemovePc.step_registers call hl, hother hpc (fun _ => by nofun)⟩
  | accept hpc | allocToken hpc | insert hpc | closed hpc | failed hpc | read hpc | owned hpc
  | replaced hpc | heartbeat hpc | leave hpc => exact ⟨hl, hother hpc (fun _ => by nofun)⟩

namespace Stage.Move

variable {me : Nat} {h h' : Host} {i : Choice} {s s' : Stage}

theorem registers (hm : Move me h i h' s s') {corr : UInt64} {kind : WaitKind} {tx : Nat}
    (hl : h'.instances.waiters.lookup corr = some (kind, tx)) :
    h.instances.waiters.lookup corr = some (kind, tx) ∨
      (s.note me h = some (.registered tx corr kind) ∧
        ∃ id msg, s.outgoing = some (id, msg) ∧ msg.corr = corr) := by
  cases hm with
  | enqueue moves =>
    obtain ⟨-, hhost, -⟩ := moves
    rw [hhost, (EnqueuePc.step_waiters ..).waiters] at hl
    exact .inl hl
  | draw idle pc corr host =>
    rw [host] at hl
    exact .inl hl
  | @send call call' before step =>
    rcases SendCall.note_of_registers step hl with hold | ⟨hnote, hpc, hcorr⟩
    · exact .inl hold
    · refine .inr ⟨(note_of_sending before).trans hnote, call.instanceId, call.msg, ?_, hcorr⟩
      rw [outgoing_of_sending before, SendCall.outgoing, hpc]
  | session before step => exact .inl (Session.step_waiters step hl).1
  | other idle quiet =>
    rw [quiet.waiters.waiters] at hl
    exact .inl hl

theorem sent (hm : Move me h i h' s s') {tx : Nat} {via : String} {reply : SimToServer}
    (hk : h'.oneshot tx = .sent via reply) :
    h.oneshot tx = .sent via reply ∨
      ∃ sn, s = .task (.session sn) ∧ sn.pc = .push reply (.reply tx) := by
  cases hm with
  | enqueue moves =>
    obtain ⟨-, hhost, -⟩ := moves
    rw [hhost, (EnqueuePc.step_waiters ..).oneshot] at hk
    exact .inl hk
  | draw idle pc corr host =>
    rw [host] at hk
    exact .inl hk
  | send before step => exact .inl (SendCall.step_sent step hk)
  | @session sn sn' before step =>
    cases Session.step_section step with
    | @push msg sub _ out hpc call =>
      obtain rfl : (sub.step sn.register.instanceId msg h).1 = h' := congrArg Prod.fst call
      rcases PushPc.step_sent hk with hold | ⟨rfl, -, rfl⟩
      · exact .inl hold
      · exact .inr ⟨sn, before, hpc⟩
    | removeGoodbye _ call | remove _ call => exact .inl (RemovePc.step_sent call hk)
    | _ => exact .inl hk
  | other idle quiet =>
    rw [quiet.waiters.oneshot] at hk
    exact .inl hk

end Stage.Move

/-! ## Runs -/

/-- A corr that a task holds has not been asked for. -/
theorem CorrsDrawn.not_asked {c : Config (Host × List RequestEvent) ServerTask} {drawn t : Nat}
    (corrs : CorrsDrawn drawn c) {id : String} {msg : ServerToSim}
    (ht : (c.task t).stage.outgoing = some (id, msg)) (token : Nat) :
    asked token msg.corr c.shared.2 = false := by
  by_contra hasked
  obtain ⟨tx, id', msg', he, hcorr⟩ := asked_iff.mp (Bool.eq_true_of_not_eq_false hasked)
  have hheld : (ticketsOf drawn c).held t = some msg.corr.toNat := by
    change (c.task t).stage.outgoing.map _ = _
    rw [ht]
    rfl
  refine corrs.sound.unspent t _ hheld ?_
  rw [← hcorr]
  exact List.mem_map_of_mem (mem_queuedCorrs he)

namespace WaitersKnown

variable {c c' : Config (Host × List RequestEvent) ServerTask} {me : Nat} {i : Choice}

theorem of_boot {c : Config Host ServerTask} (boot : ServerBoot c) :
    WaitersKnown (c.withLog []) := by
  obtain ⟨default, config, now, hshared⟩ := boot.shared
  have hempty : ∀ corr, c.shared.instances.waiters.lookup corr = none := by
    intro corr
    rw [hshared]
    exact HashMap.lookup_empty corr
  refine ⟨fun corr kind tx hl => ?_, fun corr kind tx p s msg hl => ?_, fun p s msg sub tx hp hpc => ?_,
    fun tx via msg hk => ?_⟩
  · exact absurd ((hempty corr).symm.trans hl) (by simp)
  · exact absurd ((hempty corr).symm.trans hl) (by simp)
  · have hfirst := ((boot.fresh p).session hp).1
    rw [hpc] at hfirst
    cases hfirst
  · change c.shared.oneshot tx = _ at hk
    rw [hshared] at hk
    cases hk

/-- The envelope that takes a waiter is the first answer of its stream. -/
theorem first_of_taken (known : WaitersKnown c) (streams : StreamsKnown c.erase) {p : Nat}
    {s : Session} (hp : (c.task p).stage = .task (.session s)) {msg : SimToServer}
    (hpc : s.pc = .push msg .complete) (hcorr : msg.corr ≠ 0) {kind : WaitKind} {tx : Nat}
    (hl : c.shared.1.instances.waiters.lookup msg.corr = some (kind, tx))
    (hmatch : InstanceMap.waiterMatches kind msg = true) : FirstAnswer c tx msg := by
  obtain ⟨front, hfront⟩ := (streams.locals p s hp).current msg (by rw [Session.current, hpc])
  have htoken : s.HasToken := by rw [Session.HasToken, hpc]; trivial
  have hhandled : s.handled = front := by
    rw [Session.handled, hpc, hfront]
    exact List.dropLast_concat
  refine ⟨p, s, kind, hp, htoken, hcorr, known.registered _ _ _ hl, ?_⟩
  have hnone : front.find? (answers msg.corr kind) = none := by
    refine List.find?_eq_none.mpr fun m hm => ?_
    rw [known.unanswered msg.corr kind tx p s m hl hcorr hp (hhandled ▸ hm)]
    exact Bool.false_ne_true
  have hans : answers msg.corr kind msg = true := by simp [answers, hmatch]
  rw [hfront, List.find?_append, hnone, Option.none_or, List.find?_cons, hans]

theorem step (known : WaitersKnown c) {drawn : Nat} (corrs : CorrsDrawn drawn c) (heard : Heard c)
    (streams : StreamsKnown c.erase) (hf : requestHistory.fire c me i = some c') :
    WaitersKnown c' := by
  obtain ⟨hmove, hlog, hother⟩ := fire_request hf
  obtain ⟨hs, -⟩ := fire_stage (Pool.fire_recording hf).1
  have hs : Stage.Section me c.shared.1 i c'.shared.1 (c.task me).stage (c'.task me).stage := hs
  refine ⟨fun corr kind tx hl => ?_, fun corr kind tx p s' msg hl hcorr hp hmsg => ?_,
    fun p s' msg sub tx hp hpc htx => ?_, fun tx via msg hk => ?_⟩
  · rw [hlog]
    rcases hmove.registers hl with hold | ⟨hnote, -⟩
    · exact List.mem_append_right _ (known.registered corr kind tx hold)
    · exact List.mem_append_left _ (Option.mem_toList.mpr hnote)
  · rcases stage_of_other hother hp with ⟨rfl, hp⟩ | ⟨-, hp⟩
    · -- the stream itself has moved
      rw [hp] at hs
      obtain ⟨s, hst, hstep⟩ := hs.session_before
      obtain ⟨hold, hcurrent⟩ := Session.step_waiters hstep hl
      rcases Session.step_handled (streams.locals p s hst) hstep hmsg with hhandled | hpc
      · exact known.unanswered corr kind tx p s msg hold hcorr hst hhandled
      · exact hcurrent msg hpc hcorr
    · rcases hmove.registers hl with hold | ⟨-, id, envelope, hout, rfl⟩
      · exact known.unanswered corr kind tx p s' msg hold hcorr hp hmsg
      · -- a fresh waiter: nothing with its corr has been read
        by_contra hans
        rw [Bool.not_eq_false, answers, Bool.and_eq_true, decide_eq_true_eq] at hans
        have hread := (s'.handled_sublist).subset hmsg
        have hasked := heard.asked p s' msg hp hread (by rw [hans.1]; exact hcorr)
        rw [hans.1, corrs.not_asked hout] at hasked
        cases hasked
  · rcases stage_of_other hother hp with ⟨rfl, hp⟩ | ⟨-, hp⟩
    · rw [hp] at hs
      obtain ⟨s, hst, hstep⟩ := hs.session_before
      rcases Session.step_held hstep hpc htx with ⟨sub₀, hpc₀, htx₀⟩ |
        ⟨hpc₀, hcorr, kind, hl, hmatch⟩
      · exact (known.held p s msg sub₀ tx hst hpc₀ htx₀).step hf
      · exact (known.first_of_taken streams hst hpc₀ hcorr hl hmatch).step hf
    · exact (known.held p s' msg sub tx hp hpc htx).step hf
  · rcases hmove.sent hk with hold | ⟨s, hst, hpc⟩
    · exact (known.sent tx via msg hold).step hf
    · exact (known.held me s msg (.reply tx) tx hst hpc rfl).step hf

end WaitersKnown

/-- The requests of the history by the streams they were queued on. -/
structure TokensKnown (c : Config (Host × List RequestEvent) ServerTask) : Prop where
  issued : ∀ tx id token msg, .queued tx id (some token) msg ∈ c.shared.2 →
    token < c.shared.1.instances.nextToken
  stream : ∀ tx id token msg p s, .queued tx id (some token) msg ∈ c.shared.2 →
    (c.task p).stage = .task (.session s) → s.HasToken → s.token = token →
    s.register.instanceId = id

namespace TokensKnown

variable {c c' : Config (Host × List RequestEvent) ServerTask} {me : Nat} {i : Choice}

theorem step (known : TokensKnown c) (streams : StreamsKnown c.erase)
    (hf : requestHistory.fire c me i = some c') : TokensKnown c' := by
  obtain ⟨hfire, hlog⟩ := Pool.fire_recording hf
  obtain ⟨hs, hother⟩ := fire_stage hfire
  have hs : Stage.Section me c.shared.1 i c'.shared.1 (c.task me).stage (c'.task me).stage := hs
  have hgrow : c.shared.1.instances.nextToken ≤ c'.shared.1.instances.nextToken := hs.nextToken
  -- an envelope is queued for the entry of the stream that owns the id
  have hentry : ∀ {tx id token msg}, .queued tx id (some token) msg ∈ c'.shared.2 →
      .queued tx id (some token) msg ∈ c.shared.2 ∨
        ∃ inst, c.shared.1.instances.inner.lookup id = some inst ∧ inst.token = token := by
    intro tx id token msg he
    rw [hlog] at he
    rcases List.mem_append.mp he with hnew | hold
    · have htoken := (Stage.note_queued (Option.mem_toList.mp hnew)).2
      exact .inr (Option.map_eq_some_iff.mp htoken.symm)
    · exact .inl hold
  have hissued : ∀ {tx id token msg}, .queued tx id (some token) msg ∈ c'.shared.2 →
      token < c.shared.1.instances.nextToken := by
    intro tx id token msg he
    rcases hentry he with hold | ⟨inst, hid, rfl⟩
    · exact known.issued tx id token msg hold
    · exact streams.entry_fresh id inst hid
  have hstream : ∀ {tx id token msg p s}, .queued tx id (some token) msg ∈ c'.shared.2 →
      (c.task p).stage = .task (.session s) → s.HasToken → s.token = token →
      s.register.instanceId = id := by
    intro tx id token msg p s he hp htoken htok
    rcases hentry he with hold | ⟨inst, hid, hinst⟩
    · exact known.stream tx id token msg p s hold hp htoken htok
    · exact (streams.owns p s id inst hp htoken hid (hinst.trans htok.symm)).key
  refine ⟨fun tx id token msg he => (hissued he).trans_le hgrow,
    fun tx id token msg p s' he hp htoken htok => ?_⟩
  rcases stage_of_other hother hp with ⟨rfl, hp⟩ | ⟨-, hp⟩
  · rw [hp] at hs
    obtain ⟨s, hst, hstep⟩ := hs.session_before
    rcases Session.step_keeps hstep with ⟨hhad, hkeeps⟩ | ⟨-, -, hnew⟩
    · rw [hkeeps.register]
      exact hstream he hst hhad (hkeeps.token.symm.trans htok)
    · -- a token that is handed out now has not been used
      rw [← htok, hnew htoken] at he
      exact absurd (hissued he) (Nat.lt_irrefl _)
  · exact hstream he hp htoken htok

end TokensKnown

/-! ## The answer -/

/-- The reply was sent on the stream of `id` on which the request `r` was queued, and is the
first envelope there that answers it. -/
def OwnAnswer (c : Config (Host × List RequestEvent) ServerTask) (tx : Nat) (r : ToolRequest)
    (kind : WaitKind) (id : String) (corr : UInt64) (reply : SimToServer) : Prop :=
  ∃ p s, (c.task p).stage = .task (.session s) ∧ s.HasToken ∧ s.register.instanceId = id ∧
    .queued tx id (some s.token)
      { corr, ackRequested := r.ackRequested, payload := some r.payload } ∈ c.shared.2 ∧
    s.received.find? (answers corr kind) = some reply

/-- The tools that are about to read a reply have their own. -/
def AnswersOwn (c : Config (Host × List RequestEvent) ServerTask) : Prop :=
  ∀ t k r w id corr reply, (c.task t).stage = .request k r (.wait w (.read id corr reply)) →
    OwnAnswer c (channel t k) r w.kind id corr reply

theorem OwnAnswer.step {c c' : Config (Host × List RequestEvent) ServerTask} {me : Nat} {i : Choice}
    {tx : Nat} {r : ToolRequest} {kind : WaitKind} {id : String} {corr : UInt64}
    {reply : SimToServer} (own : OwnAnswer c tx r kind id corr reply)
    (hf : requestHistory.fire c me i = some c') : OwnAnswer c' tx r kind id corr reply := by
  obtain ⟨p, s, hp, htoken, hid, hqueued, hfind⟩ := own
  obtain ⟨s', hp', hkeeps⟩ := fire_stream hf hp htoken
  refine ⟨p, s', hp', hkeeps.hasToken, ?_, ?_, hkeeps.find? hfind⟩
  · rw [hkeeps.register]
    exact hid
  · rw [hkeeps.token, (Pool.fire_recording hf).2]
    exact List.mem_append_right _ hqueued

/-- Everything that holds along a run in which the simulators echo corrs. -/
structure AnswersKnown (c : Config (Host × List RequestEvent) ServerTask) : Prop where
  corrs : ∃ drawn, CorrsDrawn drawn c
  heard : Heard c
  calls : CallsKnown c
  waiters : WaitersKnown c
  tokens : TokensKnown c
  answers : AnswersOwn c

namespace AnswersKnown

variable {c c' : Config (Host × List RequestEvent) ServerTask} {me : Nat} {i : Choice}

theorem of_boot {c : Config Host ServerTask} (boot : ServerBoot c) : AnswersKnown (c.withLog []) where
  corrs := ⟨0, .of_boot boot⟩
  heard := .of_boot boot
  calls := .of_boot boot
  waiters := .of_boot boot
  tokens := ⟨fun _ _ _ _ he => (by cases he), fun _ _ _ _ _ _ he => (by cases he)⟩
  answers t k r w id corr reply hst := by
    change (c.task t).stage = _ at hst
    rcases (boot.fresh t).stage with ⟨u, hu, -⟩ | hb | ho | ⟨r', id', hr⟩
    · rw [hu] at hst; cases hst
    · rw [hb] at hst; cases hst
    · rw [ho] at hst; cases hst
    · rw [hr] at hst
      obtain ⟨-, -, hstart⟩ := Stage.request.inj hst
      rcases ToolRequest.start_ne hstart with he | ⟨id, he⟩ <;> cases he

/-- The call that returns a reply has its own answer. -/
theorem own_of_returned (known : AnswersKnown c) {t k : Nat} {r : ToolRequest} {w : Waiting}
    {call call' : SendCall} {h' : Host} (hst : (c.task t).stage = .calling k r w call)
    (hs : call.step (channel t k) c.shared.1 i = some (h', call')) {reply : SimToServer}
    (hreturned : call'.pc = .returned (.ok reply)) :
    OwnAnswer c (channel t k) r w.kind call.instanceId call.msg.corr reply := by
  obtain ⟨via, hsent, -⟩ := SendCall.step_returned hs hreturned
  obtain ⟨deadline, hpc⟩ : ∃ deadline, call.pc = .await deadline := by
    cases SendCall.step_section hs with
    | answered pc => exact ⟨_, pc⟩
    | _ => cases hreturned
  have hcall := known.calls.call t k r w call hst
  obtain ⟨token, hqueued⟩ := hcall.queued deadline hpc
  obtain ⟨p, s, kind, hp, htoken, hcorr, hregistered, hfind⟩ := known.waiters.sent _ via reply hsent
  obtain ⟨-, hsame, rfl⟩ := hcall.registered _ kind hregistered
  rw [hsame, hcall.kind] at hfind
  -- the stream was asked for this corr, and only this request has it
  have hasked := known.heard.asked p s reply hp (List.mem_of_find?_eq_some hfind) hcorr
  obtain ⟨tx', id', msg', hqueued', hcorr'⟩ := asked_iff.mp hasked
  obtain ⟨drawn, corrs⟩ := known.corrs
  have htok := queued_unique corrs.queuedCorrs.1 hqueued' hqueued (hcorr'.trans hsame)
  obtain rfl := Option.some.inj htok
  refine ⟨p, s, hp, htoken, known.tokens.stream _ _ _ _ p s hqueued hp htoken rfl, ?_, hfind⟩
  rw [← hcall.msg]
  exact hqueued

theorem step_answers (known : AnswersKnown c) (hf : requestHistory.fire c me i = some c') :
    AnswersOwn c' := by
  intro t k r w id corr reply hst
  obtain ⟨hs, hother⟩ := fire_stage (Pool.fire_recording hf).1
  have hs : Stage.Section me c.shared.1 i c'.shared.1 (c.task me).stage (c'.task me).stage := hs
  rcases stage_of_other hother hst with ⟨rfl, hst⟩ | ⟨-, hst⟩
  · rw [hst] at hs
    obtain ⟨pc, hpc, hstep⟩ := hs.request_before fun id he => by
      rcases ToolRequest.start_ne he.symm with he | ⟨id, he⟩ <;> cases he
    obtain ⟨call, call', rfl, hcall, hreturned, rfl, rfl⟩ := RequestPc.step_reading hstep
    obtain ⟨hid, hmsg, -⟩ := SendCall.step_args hcall
    rw [hid, hmsg]
    exact (known.own_of_returned hpc hcall hreturned).step hf
  · exact (known.answers t k r w id corr reply hst).step hf

theorem step (known : AnswersKnown c) (streams : StreamsKnown c.erase) (guard : Echoes c me i)
    (hf : requestHistory.fire c me i = some c') : AnswersKnown c' := by
  obtain ⟨drawn, corrs⟩ := known.corrs
  exact ⟨corrs.step guard.1 hf, known.heard.step guard hf, known.calls.step hf,
    known.waiters.step corrs known.heard streams hf, known.tokens.step streams hf,
    known.step_answers hf⟩

theorem of_reach {c₀ : Config Host ServerTask} (boot : ServerBoot c₀)
    (run : requestHistory.Reach Echoes (c₀.withLog []) c) : AnswersKnown c := by
  induction run with
  | refl => exact of_boot boot
  | tail run guard fire ih => exact ih.step (streams_known boot run.erase) guard fire

end AnswersKnown

/-- While the simulators echo corrs, a tool reads the first answer to its own request, from the
stream of the instance that the request was queued for. -/
theorem reads_own_answer {c₀ : Config Host ServerTask}
    {c : Config (Host × List RequestEvent) ServerTask} (boot : ServerBoot c₀)
    (run : requestHistory.Reach Echoes (c₀.withLog []) c) : AnswersOwn c :=
  (AnswersKnown.of_reach boot run).answers

instance : ∀ c me i, Decidable (Echoes c me i) :=
  fun c me i => inferInstanceAs
    (Decidable (c.shared.1.instances.nextCorr ≠ 0 ∧ echoes c me i = true))

theorem reads_own_answer_twoKeys :
    ∃ c, requestHistory.Reach Echoes (twoKeys.withLog []) c ∧
      (c.task 1).stage = secondKeyAnswered ∧
      OwnAnswer c (channel 1 1) ⟨true, .injectKey "power" 0, some ⟨.uiResult, replyTimeout, .inject⟩⟩
        .uiResult "a" 2 { corr := 2, payload := some (.uiResult {}) } := by
  obtain ⟨c, run, hst⟩ := requestHistory.exists_reach Echoes (twoKeys.withLog []) answerTwice
    (fun c => (c.task 1).stage = secondKeyAnswered) (by decide +kernel)
  exact ⟨c, run, hst, reads_own_answer serverBoot_twoKeys run 1 1 _ _ _ _ _ hst⟩

end CsmProxy
