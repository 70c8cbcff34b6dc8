import CsmProxy.Sessions.Ownership

/-!
# What an observe call does with the envelopes it takes

Every pop of an inbound queue is entered in the log `Host.pops` under the task that
made it, so the log assigns each envelope to one call. A call that returns `Ok`
answers with the envelopes it has popped and its mask admits, in that order. A call
that is still polling when its instance disconnects returns an error and loses what
it has popped before (`not_observeKeeps_disconnect`); apart from that, a call that finds the
same view whenever it reads the mask loses nothing (`observeKeeps_of_observeKept`).
-/

namespace CsmProxy

open Foundations

/-- The envelopes that task `t` has taken, in order. -/
def poppedBy (pops : List (Nat × String × SimToServer)) (t : Nat) : List SimToServer :=
  pops.filterMap fun pop => if pop.1 = t then some pop.2.2 else none

/-- The envelopes that a session view lets `observe` emit. -/
def admitted (view : List String) (msgs : List SimToServer) : List SimToServer :=
  msgs.filter (InstanceMap.inboundVisible view)

theorem poppedBy_append (pops : List (Nat × String × SimToServer)) (me t : Nat) (id : String)
    (msg : SimToServer) :
    poppedBy (pops ++ [(me, id, msg)]) t = poppedBy pops t ++ if me = t then [msg] else [] := by
  by_cases h : me = t <;> simp [poppedBy, h]

theorem admitted_append (view : List String) (msgs msgs' : List SimToServer) :
    admitted view (msgs ++ msgs') = admitted view msgs ++ admitted view msgs' :=
  List.filter_append ..

/-! ## The invariant of a call -/

namespace ObserveCall

/-- `events` are envelopes that the call has taken; where the call has found the view `view`
(`kept`), they are all those that the view admits. -/
structure Accounts (view : List String) (kept : Prop) (popped events : List SimToServer) : Prop where
  sublist : events.Sublist popped
  admitted : kept → admitted view events = admitted view popped

/-- The call by itself, with the envelopes it has taken. -/
def Inv (view : List String) (kept : Prop) (popped : List SimToServer) (c : ObserveCall) : Prop :=
  match c.pc with
  | .default => c.polling = false ∧ c.events = [] ∧ popped = []
  | .resolve target =>
    (c.polling = true ∧ target = c.id ∧ Accounts view kept popped c.events) ∨
      (c.polling = false ∧ c.events = [] ∧ popped = [])
  | .drain mask => (kept → mask = view ∨ mask = []) ∧ Accounts view kept popped c.events
  | .check | .clock _ | .sleep _ => c.polling = true ∧ Accounts view kept popped c.events
  | .readMask | .floor | .reply _ _ => Accounts view kept popped c.events
  | .returned (.ok reply) => Accounts view kept popped reply.events
  | .returned (.error _) => kept → admitted view popped = []

theorem Accounts.nil (view : List String) (kept : Prop) : Accounts view kept [] [] :=
  ⟨List.nil_sublist _, fun _ => rfl⟩

/-- The call takes one more envelope. -/
theorem Accounts.take {view mask : List String} {kept : Prop} {popped events : List SimToServer}
    (h : Accounts view kept popped events) (hmask : kept → mask = view ∨ mask = [])
    (msg : SimToServer) :
    Accounts view kept (popped ++ [msg])
      (if InstanceMap.inboundVisible mask msg then events ++ [msg] else events) where
  sublist := by
    split
    · exact h.sublist.append (List.Sublist.refl _)
    · exact h.sublist.trans (List.sublist_append_left _ _)
  admitted hkept := by
    rw [admitted_append, ← h.admitted hkept]
    split
    · exact admitted_append ..
    · rename_i hhidden
      -- a mask that hides the envelope is the view itself
      rcases hmask hkept with rfl | rfl
      · simp [CsmProxy.admitted, hhidden]
      · simp [InstanceMap.inboundVisible] at hhidden

/-- What a step needs to know about the map. -/
structure Env (view : List String) (kept : Prop) (popped : List SimToServer) (m : InstanceMap)
    (c : ObserveCall) : Prop where
  mask : kept → c.pc = .readMask → ∀ inst, m.inner.lookup c.id = some inst → inst.readMask = view
  connected : kept → ∀ target err, c.pc = .resolve target → c.polling = true →
    m.resolve target = .error err → admitted view popped = []

/-- What follows a drain has the events of the drain. -/
theorem afterDrain_inv {view : List String} {kept : Prop} {popped : List SimToServer}
    {c : ObserveCall} (hacc : Accounts view kept popped c.events) :
    Inv view kept popped { c with pc := c.afterDrain } := by
  rw [Inv, afterDrain]
  cases hpoll : c.polling with
  | true => exact ⟨rfl, hacc⟩
  | false => cases c.spec <;> exact hacc

/-- A section of an observe call keeps its invariant and logs its own pops. -/
theorem step_inv {view : List String} {kept : Prop} {me : Nat} {h h' : Host} {c c' : ObserveCall}
    {i : Choice} (hs : c.step me h i = some (h', c'))
    (env : c.Env view kept (poppedBy h.pops me) h.instances)
    (inv : c.Inv view kept (poppedBy h.pops me)) :
    c'.Inv view kept (poppedBy h'.pops me) ∧ ∀ t, t ≠ me → poppedBy h'.pops t = poppedBy h.pops t := by
  rw [Inv] at inv
  cases step_cases hs with
  | named hpc =>
    rw [hpc] at inv
    exact ⟨Or.inr inv, fun _ _ => rfl⟩
  | unnamed hpc =>
    rw [hpc] at inv
    obtain ⟨-, -, hp⟩ := inv
    refine ⟨fun _ => ?_, fun _ _ => rfl⟩
    rw [hp]
    rfl
  | resolved hpc hfound =>
    rw [hpc] at inv
    refine ⟨?_, fun _ _ => rfl⟩
    rcases inv with ⟨-, -, hacc⟩ | ⟨-, he, hp⟩
    · exact hacc
    · rw [Inv, he, hp]
      exact Accounts.nil ..
  | unresolved hpc hmissing =>
    rw [hpc] at inv
    refine ⟨fun hkept => ?_, fun _ _ => rfl⟩
    rcases inv with ⟨hpoll, -, -⟩ | ⟨-, -, hp⟩
    · exact env.connected hkept _ _ hpc hpoll hmissing
    · rw [hp]
      rfl
  | readMask hpc =>
    rw [hpc] at inv
    refine ⟨⟨fun hkept => ?_, inv⟩, fun _ _ => rfl⟩
    cases hl : h.instances.inner.lookup c.id with
    | none => exact Or.inr (by simp [InstanceMap.readMask, hl])
    | some inst =>
      have hmask := env.mask hkept hpc inst hl
      exact Or.inl (by simp [InstanceMap.readMask, hl, hmask])
  | @pop mask msg instances hpc hrecv =>
    rw [hpc] at inv
    obtain ⟨hmask, hacc⟩ := inv
    refine ⟨?_, fun t ht => ?_⟩
    · rw [poppedBy_append, if_pos rfl, Inv]
      dsimp only
      rw [hpc]
      exact ⟨hmask, hacc.take hmask msg⟩
    · rw [poppedBy_append, if_neg (Ne.symm ht), List.append_nil]
  | drained hpc hrecv =>
    rw [hpc] at inv
    exact ⟨afterDrain_inv inv.2, fun _ _ => rfl⟩
  | floor hpc =>
    rw [hpc] at inv
    exact ⟨⟨rfl, inv⟩, fun _ _ => rfl⟩
  | check hpc =>
    rw [hpc] at inv
    exact ⟨inv, fun _ _ => rfl⟩
  | exit hpc =>
    rw [hpc] at inv
    exact ⟨inv.2, fun _ _ => rfl⟩
  | sleep hpc =>
    rw [hpc] at inv
    exact ⟨inv, fun _ _ => rfl⟩
  | reply hpc =>
    rw [hpc] at inv
    exact ⟨inv, fun _ _ => rfl⟩
  | wake hpc =>
    rw [hpc] at inv
    exact ⟨Or.inl ⟨inv.1, rfl, inv.2⟩, fun _ _ => rfl⟩

/-- A pop takes the head of the queue of the call's instance, and is logged. -/
theorem step_pops {me : Nat} {h h' : Host} {c c' : ObserveCall} {i : Choice}
    (hs : c.step me h i = some (h', c')) :
    h'.pops = h.pops ∨ ∃ msg inst, h.instances.inner.lookup c.id = some inst ∧
      inst.inbound.items.head? = some msg ∧ h'.pops = h.pops ++ [(me, c.id, msg)] ∧
      (h'.instances.inner.lookup c.id).map (fun inst => inst.inbound.items) =
        some inst.inbound.items.tail := by
  cases step_cases hs with
  | @pop mask msg instances hpc hrecv =>
    unfold InstanceMap.tryRecvInbound at hrecv
    cases hl : h.instances.inner.lookup c.id with
    | none =>
      rw [hl] at hrecv
      cases hrecv
    | some inst =>
      rw [hl] at hrecv
      obtain ⟨hhead, rfl⟩ := Prod.mk.inj hrecv
      refine Or.inr ⟨msg, inst, rfl, hhead, rfl, ?_⟩
      simp [InboundQueue.tryRecv]
  | _ => exact Or.inl rfl

end ObserveCall

/-! ## Runs -/

/-- Whenever the call of task `t` reads the mask, the view of its instance is `view`. -/
def readsView (view : List String) (t : Nat) (c : Config Host Task) (me : Nat) : Bool :=
  match c.task me with
  | .observe call =>
    match call.pc with
    | .readMask =>
      me ≠ t || (c.shared.instances.inner.lookup call.id).all fun inst => inst.readMask = view
    | _ => true
  | _ => true

/-- When the call of task `t` is polling and about to resolve its instance again, it finds it
connected, or has taken no envelope that it could lose. -/
def repollsSafely (view : List String) (t : Nat) (c : Config Host Task) (me : Nat) : Bool :=
  match c.task me with
  | .observe call =>
    match call.pc with
    | .resolve target =>
      me ≠ t || !call.polling || (c.shared.instances.resolve target).isOk ||
        admitted view (poppedBy c.shared.pops t) = []
    | _ => true
  | _ => true

/-- The guard of the runs in which the view of the call of task `t` does not change. -/
def ViewKept (view : List String) (t : Nat) : Pool.Guard Host Task Choice := fun c me _ =>
  readsView view t c me = true

/-- The guard of the runs in which, moreover, every repeated resolve of the call is safe. -/
def ObserveKept (view : List String) (t : Nat) : Pool.Guard Host Task Choice := fun c me _ =>
  readsView view t c me = true ∧ repollsSafely view t c me = true

instance (view : List String) (t : Nat) :
    ∀ (c : Config Host Task) (me : Nat) (i : Choice), Decidable (ViewKept view t c me i) :=
  fun c me _ => inferInstanceAs (Decidable (readsView view t c me = true))

instance (view : List String) (t : Nat) :
    ∀ (c : Config Host Task) (me : Nat) (i : Choice), Decidable (ObserveKept view t c me i) :=
  fun c me _ =>
    inferInstanceAs (Decidable (readsView view t c me = true ∧ repollsSafely view t c me = true))

/-- The calls and the log, for the call of task `t` and those beside it. -/
structure ObserveInv (view : List String) (t : Nat) (c : Config Host Task) : Prop where
  calls : ∀ t' call, c.task t' = .observe call → call.Inv view (t' = t) (poppedBy c.shared.pops t')
  others : ∀ t', (∀ call, c.task t' ≠ .observe call) → poppedBy c.shared.pops t' = []

theorem observe_env {view : List String} {t : Nat} {c : Config Host Task} {me : Nat} {i : Choice}
    {call : ObserveCall} (guard : ObserveKept view t c me i) (hme : c.task me = .observe call) :
    call.Env view (me = t) (poppedBy c.shared.pops me) c.shared.instances := by
  obtain ⟨hview, hpoll⟩ := guard
  refine ⟨?_, ?_⟩
  · rintro rfl hpc inst hl
    simpa [readsView, hme, hpc, hl] using hview
  · rintro rfl target err hpc hpolling herr
    simpa [repollsSafely, hme, hpc, hpolling, herr, Except.isOk, Except.toBool] using hpoll

namespace ObserveInv

theorem of_boot {c : Config Host Task} (h : Boot c) (view : List String) (t : Nat) :
    ObserveInv view t c := by
  obtain ⟨default, config, now, hshared⟩ := h.shared
  have hpops : ∀ t', poppedBy c.shared.pops t' = [] := by
    intro t'
    rw [hshared]
    rfl
  refine ⟨?_, fun t' _ => hpops t'⟩
  intro t' call ht
  have hf := h.fresh t'
  rw [ht] at hf
  obtain ⟨target, spec, rfl⟩ := hf
  rw [hpops]
  cases target with
  | none => exact ⟨rfl, rfl, rfl⟩
  | some target => exact Or.inr ⟨rfl, rfl, rfl⟩

theorem step {view : List String} {t : Nat} {c c' : Config Host Task} {me : Nat} {i : Choice}
    (inv : ObserveInv view t c) (guard : ObserveKept view t c me i)
    (hf : proxy.fire c me i = some c') : ObserveInv view t c' := by
  obtain ⟨hs, hother⟩ := fire_task hf
  by_cases hme : ∃ call, c.task me = .observe call
  · obtain ⟨call, hme⟩ := hme
    rw [hme] at hs
    obtain ⟨⟨g', call'⟩, hp, he⟩ := Option.map_eq_some_iff.mp hs
    obtain ⟨rfl, hcall'⟩ := Prod.mk.inj he
    obtain ⟨hinv, hpops⟩ := ObserveCall.step_inv hp (observe_env guard hme)
      (inv.calls me call hme)
    refine ⟨?_, ?_⟩
    · intro t' call₁ ht
      by_cases htm : t' = me
      · subst htm
        rw [← hcall'] at ht
        cases ht
        exact hinv
      · rw [hother t' htm] at ht
        rw [hpops t' htm]
        exact inv.calls t' call₁ ht
    · intro t' ht
      by_cases htm : t' = me
      · subst htm
        exact absurd hcall'.symm (ht call')
      · rw [hother t' htm] at ht
        rw [hpops t' htm]
        exact inv.others t' ht
  · have hme' : ∀ call, c.task me ≠ .observe call := fun call h => hme ⟨call, h⟩
    obtain ⟨hpops, hl⟩ := Task.step_pops hs hme'
    refine ⟨?_, ?_⟩
    · intro t' call ht
      by_cases htm : t' = me
      · subst htm
        exact absurd ht (hl call)
      · rw [hother t' htm] at ht
        rw [hpops]
        exact inv.calls t' call ht
    · intro t' ht
      rw [hpops]
      by_cases htm : t' = me
      · subst htm
        exact inv.others t' hme'
      · rw [hother t' htm] at ht
        exact inv.others t' ht

theorem of_reach {view : List String} {t : Nat} {c₀ c : Config Host Task} (boot : Boot c₀)
    (run : proxy.Reach (ObserveKept view t) c₀ c) : ObserveInv view t c :=
  run.invariant (of_boot boot view t) fun _ _ _ _ inv guard hf => inv.step guard hf

end ObserveInv

/-- The call of task `t`, whose view is `view`, loses nothing that it takes from its queue, and
no call duplicates anything. -/
structure ObserveKeeps (view : List String) (t : Nat) (c : Config Host Task) : Prop where
  /-- A response has envelopes that its own call has taken, in that order. -/
  own : ∀ t' call reply, c.task t' = .observe call → call.pc = .returned (.ok reply) →
    reply.events.Sublist (poppedBy c.shared.pops t')
  /-- The response of the call has all of them that the view admits. -/
  reply : ∀ call reply, c.task t = .observe call → call.pc = .returned (.ok reply) →
    admitted view reply.events = admitted view (poppedBy c.shared.pops t)
  /-- If the call has failed, it has taken nothing that the view admits. -/
  error : ∀ call err, c.task t = .observe call → call.pc = .returned (.error err) →
    admitted view (poppedBy c.shared.pops t) = []
  /-- Nobody but observe calls takes envelopes, each pop takes the head of a queue, and
  the log assigns it to the call that made it. -/
  pop : ∀ me i c', proxy.fire c me i = some c' → c'.shared.pops = c.shared.pops ∨
    ∃ call msg inst, c.task me = .observe call ∧
      c.shared.instances.inner.lookup call.id = some inst ∧
      inst.inbound.items.head? = some msg ∧
      c'.shared.pops = c.shared.pops ++ [(me, call.id, msg)] ∧
      (c'.shared.instances.inner.lookup call.id).map (fun inst => inst.inbound.items) =
        some inst.inbound.items.tail

theorem fire_pops {c c' : Config Host Task} {me : Nat} {i : Choice}
    (hf : proxy.fire c me i = some c') : c'.shared.pops = c.shared.pops ∨
      ∃ call msg inst, c.task me = .observe call ∧
        c.shared.instances.inner.lookup call.id = some inst ∧
        inst.inbound.items.head? = some msg ∧
        c'.shared.pops = c.shared.pops ++ [(me, call.id, msg)] ∧
        (c'.shared.instances.inner.lookup call.id).map (fun inst => inst.inbound.items) =
          some inst.inbound.items.tail := by
  obtain ⟨hs, -⟩ := fire_task hf
  by_cases hme : ∃ call, c.task me = .observe call
  · obtain ⟨call, hme⟩ := hme
    rw [hme] at hs
    obtain ⟨⟨g, call'⟩, hp, he⟩ := Option.map_eq_some_iff.mp hs
    obtain ⟨rfl, -⟩ := Prod.mk.inj he
    rcases ObserveCall.step_pops hp with hsame | ⟨msg, inst, hl, hhead, hpops, htail⟩
    · exact Or.inl hsame
    · exact Or.inr ⟨call, msg, inst, hme, hl, hhead, hpops, htail⟩
  · exact Or.inl (Task.step_pops hs fun call h => hme ⟨call, h⟩).1

/-- **Conservation of envelopes.** Along every run in which the call of task `t` finds the view
`view` whenever it reads the mask, and its instance whenever it polls again with envelopes taken,
the call loses and duplicates nothing. -/
theorem observeKeeps_of_observeKept {view : List String} {t : Nat} {c₀ c : Config Host Task}
    (boot : Boot c₀) (run : proxy.Reach (ObserveKept view t) c₀ c) : ObserveKeeps view t c := by
  have inv := ObserveInv.of_reach boot run
  refine ⟨?_, ?_, ?_, fun me i c' hf => fire_pops hf⟩
  · intro t' call reply ht hr
    have hinv := inv.calls t' call ht
    rw [ObserveCall.Inv, hr] at hinv
    exact hinv.sublist
  · intro call reply ht hr
    have hinv := inv.calls t call ht
    rw [ObserveCall.Inv, hr] at hinv
    exact hinv.admitted rfl
  · intro call err ht hr
    have hinv := inv.calls t call ht
    rw [ObserveCall.Inv, hr] at hinv
    exact hinv rfl

/-- A stream under the id `a`, a view of log lines for it, and a call that waits for one. -/
def viewAndWait : Config Host Task :=
  bootWith {} [externalStream, .view (.start (some "a") ["log"] []),
    .observe (.start (some "a") (some { waitMs := some 25, untilLog := some "ready" }))]

theorem boot_viewAndWait : Boot viewAndWait := by
  refine boot_bootWith fun t ht => ?_
  simp only [List.mem_cons, List.not_mem_nil, or_false] at ht
  rcases ht with rfl | rfl | rfl
  · rfl
  · exact ⟨_, _, _, rfl⟩
  · exact ⟨_, _, rfl⟩

/-- An ack is queued before the view is set: the call takes it with the log line, and answers
with what the view admits. -/
theorem observeKeeps_masked :
    ∃ c, proxy.Reach (ObserveKept ["log"] 2) viewAndWait c ∧
      poppedBy c.shared.pops 2 =
        [{ payload := some (.inputAck {}) }, { payload := some (.log { text := "ready" }) }] ∧
      c.task 2 = .observe ⟨some { waitMs := some 25, untilLog := some "ready" },
        .returned (.ok ⟨"a", [{ payload := some (.log { text := "ready" }) }], {}, some true,
          some false⟩), "a", true, [{ payload := some (.log { text := "ready" }) }], none, 25000000⟩ ∧
      ObserveKeeps ["log"] 2 c := by
  obtain ⟨c, run, hpops, htask⟩ := proxy.exists_reach (ObserveKept ["log"] 2) viewAndWait
    ([(0, registerAs "a"), (0, .run), (0, .run), (0, .item (envelope (.inputAck {}))), (0, .run),
      (0, .run), (0, .run)] ++ List.replicate 6 (1, .run) ++
      [(0, .item (envelope (.log { text := "ready" }))), (0, .run), (0, .run), (0, .run)] ++
      List.replicate 9 (2, .run))
    (fun c => poppedBy c.shared.pops 2 =
        [{ payload := some (.inputAck {}) }, { payload := some (.log { text := "ready" }) }] ∧
      c.task 2 = .observe ⟨some { waitMs := some 25, untilLog := some "ready" },
        .returned (.ok ⟨"a", [{ payload := some (.log { text := "ready" }) }], {}, some true,
          some false⟩), "a", true, [{ payload := some (.log { text := "ready" }) }], none, 25000000⟩)
    (by decide +kernel)
  exact ⟨c, run, hpops, htask, observeKeeps_of_observeKept boot_viewAndWait run⟩

/-- A stream under the id `a`, and a call that waits for a text that never comes. -/
def streamAndWait : Config Host Task :=
  bootWith {} [externalStream,
    .observe (.start (some "a") (some { waitMs := some 25, untilLog := some "ready" }))]

theorem boot_streamAndWait : Boot streamAndWait := by
  refine boot_bootWith fun t ht => ?_
  rcases List.mem_cons.mp ht with rfl | ht
  · rfl
  · obtain rfl := List.mem_singleton.mp ht
    exact ⟨_, _, rfl⟩

/-- The stream ends while the call sleeps: the call fails, and the ack is lost. -/
theorem not_observeKeeps_disconnect :
    ¬ ∀ view t c₀ c, Boot c₀ → proxy.Reach (ViewKept view t) c₀ c → ObserveKeeps view t c := by
  intro hall
  obtain ⟨c, run, htask, hpops⟩ := proxy.exists_reach (ViewKept [] 1) streamAndWait
    [(0, registerAs "a"), (0, .run), (0, .run), (0, .item (envelope (.inputAck {}))), (0, .run),
      (0, .run), (0, .run), (1, .run), (1, .run), (1, .run), (1, .run), (1, .run), (1, .run),
      (1, .run), (2, .tick 25000000), (1, .run), (0, .item .closed), (0, .run), (0, .run), (1, .run)]
    (fun c => c.task 1 = .observe ⟨some { waitMs := some 25, untilLog := some "ready" },
        .returned (.error "unknown instance"), "a", true, [{ payload := some (.inputAck {}) }], none,
        25000000⟩ ∧ admitted [] (poppedBy c.shared.pops 1) = [{ payload := some (.inputAck {}) }])
    (by decide +kernel)
  have hlost := (hall [] 1 _ c boot_streamAndWait run).error _ _ htask rfl
  exact absurd (hpops.symm.trans hlost) (by simp)

end CsmProxy
