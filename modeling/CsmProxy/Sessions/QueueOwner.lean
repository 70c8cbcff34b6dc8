import CsmProxy.Sessions.Ownership

/-!
# Whose envelopes a queue holds

The read loop checks that its stream owns the id and pushes the envelope in a later
critical section, by id. When a new stream is inserted between the two, the envelope
of the replaced stream lands in the queue of its successor
(`not_queuesOwned_stale_push`). That is the only way: as long as every push finds
its own entry, or none, each queue holds envelopes of the stream that owns the
entry, in the order they were received (`queuesOwned_of_pushesOwn`).
-/

namespace CsmProxy

open Foundations

/-- The entry is absent or still holds the stream's token when a stream is about to
put an envelope in the inbound queue. -/
def pushesOwn (c : Config Host Task) (me : Nat) : Bool :=
  match c.task me with
  | .session s =>
    match s.pc with
    | .push _ .enqueue =>
      (c.shared.instances.inner.lookup s.register.instanceId).all fun inst => inst.token = s.token
    | _ => true
  | _ => true

/-- The guard of the runs in which every push finds its own entry or none. -/
def PushesOwn : Pool.Guard Host Task Choice := fun c me _ => pushesOwn c me = true

instance : ∀ (c : Config Host Task) (me : Nat) (i : Choice), Decidable (PushesOwn c me i) :=
  fun c me _ => inferInstanceAs (Decidable (pushesOwn c me = true))

/-- Every queue holds envelopes that its own stream has received, in that order. -/
def QueuesOwned (c : Config Host Task) : Prop :=
  ∀ id inst, c.shared.instances.inner.lookup id = some inst →
    ∃ t s, c.task t = .session s ∧ s.Owns id inst ∧ inst.inbound.items.Sublist s.received

/-- What a stream has received leaves room for the envelope it is working on. -/
def QueueInv (m : InstanceMap) (ss : Nat → Option Session) : Prop :=
  ∀ t s id inst, ss t = some s → s.Entered → m.inner.lookup id = some inst →
    inst.token = s.token → (inst.inbound.items ++ s.current.toList).Sublist s.received

theorem pushesOwn_enqueue {c : Config Host Task} {me : Nat} {s : Session} {msg : SimToServer}
    (h : pushesOwn c me = true) (ht : c.task me = .session s) (hpc : s.pc = .push msg .enqueue)
    {inst : Instance} (hl : c.shared.instances.inner.lookup s.register.instanceId = some inst) :
    inst.token = s.token := by
  simp only [pushesOwn, ht, hpc, hl, Option.all_some] at h
  exact of_decide_eq_true h

theorem enqueueInbound_items {m : InstanceMap} {id id' : String} {msg : SimToServer}
    {inst' : Instance} (h : (m.enqueueInbound id msg).inner.lookup id' = some inst') :
    ∃ inst, m.inner.lookup id' = some inst ∧ inst'.token = inst.token ∧
      (inst'.inbound.items = inst.inbound.items ∨
        id' = id ∧ inst'.inbound.items.Sublist (inst.inbound.items ++ [msg])) := by
  obtain ⟨inst, hl, rfl | ⟨hid, rfl⟩⟩ := HashMap.of_lookup_modify h
  · exact ⟨inst', hl, rfl, Or.inl rfl⟩
  · refine ⟨inst, hl, ?_⟩
    split
    · exact ⟨rfl, Or.inl rfl⟩
    · split
      · exact ⟨rfl, Or.inl rfl⟩
      · exact ⟨rfl, Or.inr ⟨hid, InboundQueue.push_sublist _ _⟩⟩

namespace QueueInv

variable {m m' : InstanceMap} {ss : Nat → Option Session}

/-- The map changes by taking messages out of queues, or by dropping entries. -/
theorem set_entries (h : QueueInv m ss) (he : ∀ id inst', m'.inner.lookup id = some inst' →
    ∃ inst, m.inner.lookup id = some inst ∧ inst'.token = inst.token ∧
      inst'.inbound.items.Sublist inst.inbound.items) : QueueInv m' ss := by
  intro t s id inst' ht hs hl htok
  obtain ⟨inst, hl', htok', hsub⟩ := he id inst' hl
  have hq := h t s id inst ht hs hl' (htok'.symm.trans htok)
  exact (hsub.append_right _).trans hq

theorem keeps (h : QueueInv m ss) (hk : m.Keeps m') : QueueInv m' ss := by
  refine h.set_entries fun id inst' hl => ?_
  obtain ⟨inst, ho, hkeeps⟩ := InstanceMap.exists_of_rel (hk.entry id) hl
  exact ⟨inst, ho, hkeeps.token, hkeeps.inbound.sublist⟩

/-- A handler moves on without reading. -/
theorem advance (h : QueueInv m ss) {me : Nat} {s s' : Session} (hs : ss me = some s)
    (he : s'.Entered → s.Entered) (htok : s'.token = s.token) (hr : s'.received = s.received)
    (hc : s'.current = s.current ∨ s'.current = none) :
    QueueInv m (Function.update ss me (some s')) := by
  intro t s₁ id inst ht hs₁ hl htok₁
  rcases update_eq_some ht with ⟨-, rfl⟩ | ⟨-, hold⟩
  · rw [htok] at htok₁
    have hq := h me s id inst hs (he hs₁) hl htok₁
    rw [hr]
    rcases hc with hc | hc
    · rw [hc]
      exact hq
    · rw [hc, Option.toList_none, List.append_nil]
      exact (List.sublist_append_left _ _).trans hq
  · exact h t s₁ id inst hold hs₁ hl htok₁

/-- An admitted section of a handler keeps the invariant. -/
theorem step (h : QueueInv m ss) (inv : SessionsInv m ss) {me : Nat} {g g' : Host}
    {s s' : Session} {i : Choice} (hm : g.instances = m) (hs : ss me = some s)
    (hstep : s.step g i = some (g', s'))
    (own : ∀ msg, s.pc = .push msg .enqueue → ∀ inst,
      m.inner.lookup s.register.instanceId = some inst → inst.token = s.token) :
    QueueInv g'.instances (Function.update ss me (some s')) := by
  subst hm
  rcases Session.step_cases hstep with ⟨hi, -, hq⟩ | ⟨msg, hpc, hmap, rfl⟩ |
    ⟨msg, hpc, hmap, rfl⟩ | ⟨hpc, hmap, rfl⟩ | ⟨hpc, hmap, rfl⟩ | ⟨hb, msg, hpc, hmap, rfl⟩ |
    ⟨hent, hmap, pc, rfl, -, hcur⟩
  · have hmap : QueueInv g'.instances ss :=
      h.set_entries fun id inst' hl => ⟨inst', hi ▸ hl, rfl, List.Sublist.refl _⟩
    exact hmap.advance hs hq.entered.mpr hq.token hq.received hq.current
  · subst hmap
    intro t s₁ id inst ht hs₁ hl htok
    rcases update_eq_some ht with ⟨-, rfl⟩ | ⟨-, hold⟩
    · have hent : s.Entered := by rw [Session.Entered, hpc]; trivial
      have hcur : s.current = none := by rw [Session.current, hpc]
      have hq := h me s id inst hs hent hl htok
      rw [hcur, Option.toList_none, List.append_nil] at hq
      exact hq.append_right [msg]
    · exact h t s₁ id inst hold hs₁ hl htok
  · have hent : s.Entered := by rw [Session.Entered, hpc]; trivial
    obtain ⟨hent', -, hcur⟩ := Session.afterPush_entered s msg
    rw [hmap]
    intro t s₁ id inst' ht hs₁ hl htok
    obtain ⟨inst, hl', htok', hitems⟩ := enqueueInbound_items hl
    rw [htok'] at htok
    rcases update_eq_some ht with ⟨-, rfl⟩ | ⟨hne, hold⟩
    · have hq := h me s id inst hs hent hl' htok
      have hcur' : s.current = some msg := by rw [Session.current, hpc]
      rw [hcur', Option.toList_some] at hq
      rw [hcur, Option.toList_none, List.append_nil]
      rcases hitems with hitems | ⟨-, hsub⟩
      · rw [hitems]
        exact (List.sublist_append_left _ _).trans hq
      · exact hsub.trans hq
    · rcases hitems with hitems | ⟨rfl, -⟩
      · rw [hitems]
        exact h t s₁ id inst hold hs₁ hl' htok
      · have hst : s₁.token = s.token := htok.symm.trans (own msg hpc inst hl')
        exact absurd (inv.distinct t me s₁ s hold hs hs₁.hasToken hent.hasToken hst) hne
  · have hmap' : QueueInv g'.instances ss :=
      h.set_entries fun id inst' hl => ⟨inst', by rw [hmap] at hl; exact hl, rfl, List.Sublist.refl _⟩
    intro t s₁ id inst ht hs₁ hl htok
    rcases update_eq_some ht with ⟨-, rfl⟩ | ⟨-, hold⟩
    · exact hs₁.elim
    · exact hmap' t s₁ id inst hold hs₁ hl htok
  · have htoken : s.HasToken := by rw [Session.HasToken, hpc]; trivial
    rw [hmap]
    intro t s₁ id inst ht hs₁ hl htok
    change Finmap.lookup id (g.instances.inner.insert _ _) = some inst at hl
    rw [HashMap.lookup_insert_ite] at hl
    split at hl
    · obtain rfl := Option.some.inj hl
      rcases update_eq_some ht with ⟨-, rfl⟩ | ⟨hne, hold⟩
      · exact List.nil_sublist _
      · exact absurd (inv.distinct t me s₁ s hold hs hs₁.hasToken htoken htok.symm) hne
    · rcases update_eq_some ht with ⟨-, rfl⟩ | ⟨-, hold⟩
      · -- no entry holds the token before it is inserted
        have hent := (inv.owns_of_token hs htoken hl htok).entered
        rw [Session.Entered, hpc] at hent
        exact hent.elim
      · exact h t s₁ id inst hold hs₁ hl htok
  · have hent : s.Entered := by rw [Session.Entered, hpc]; trivial
    have hmap' : QueueInv g'.instances ss := by
      refine h.set_entries fun id inst' hl => ?_
      rw [hmap] at hl
      obtain ⟨inst, hl', rfl | ⟨-, rfl⟩⟩ := HashMap.of_lookup_modify hl
      · exact ⟨inst', hl', rfl, List.Sublist.refl _⟩
      · refine ⟨inst, hl', ?_⟩
        split <;> exact ⟨rfl, List.Sublist.refl _⟩
    exact hmap'.advance hs (fun _ => hent) rfl rfl (Or.inl (by rw [Session.current, Session.current, hpc]))
  · have hmap' : QueueInv g'.instances ss := by
      refine h.set_entries fun id inst' hl => ?_
      rw [hmap] at hl
      exact ⟨inst', (InstanceMap.lookup_removeEntry hl).1, rfl, List.Sublist.refl _⟩
    exact hmap'.advance hs (fun _ => hent) rfl rfl (Or.inr hcur)

end QueueInv

/-- **Queue ownership.** Along every run in which each push finds its own entry or
none, every inbound queue holds envelopes of the stream that owns the entry. -/
theorem queuesOwned_of_pushesOwn {c₀ c : Config Host Task} (boot : Boot c₀)
    (run : proxy.Reach PushesOwn c₀ c) : QueuesOwned c := by
  have hqueue : QueueInv c.shared.instances (handlers c) := by
    induction run with
    | refl =>
      intro t s id inst _ _ hl
      obtain ⟨t', s', ht', ho⟩ := (SessionsInv.of_boot boot).owner id inst hl
      have hent := ho.entered
      have hf := boot.fresh t'
      rw [Task.handler_eq_some.mp ht'] at hf
      rw [Session.Entered, congrArg Session.pc hf] at hent
      exact hent.elim
    | tail hrun guard hf ih =>
      have inv := SessionsInv.of_reach boot hrun
      rcases fire_sessions hf with ⟨-, hk, hh⟩ | ⟨s, s', ht, hs, hh⟩
      · rw [hh]
        exact ih.keeps hk
      · rw [hh]
        refine ih.step inv rfl (Task.handler_eq_some.mpr ht) hs ?_
        intro msg hpc inst hl
        exact pushesOwn_enqueue guard ht hpc hl
  intro id inst hl
  obtain ⟨t, s, ht, ho⟩ := (SessionsInv.of_reach boot run).owner id inst hl
  have hq := hqueue t s id inst ht ho.entered hl ho.token
  exact ⟨t, s, Task.handler_eq_some.mp ht, ho, (List.sublist_append_left _ _).trans hq⟩

/-- A reconnect in which both streams push what they have read themselves. -/
theorem queuesOwned_reconnect :
    ∃ c, proxy.Reach PushesOwn (bootWith {} [externalStream, externalStream]) c ∧
      (c.shared.instances.inner.lookup "a").map (fun inst => (inst.token, inst.inbound.items)) =
        some (2, [{ payload := some (.uiResult {}) }]) ∧ QueuesOwned c := by
  have hboot : Boot (bootWith {} [externalStream, externalStream]) :=
    boot_bootWith (by simp [externalStream, Task.Fresh])
  obtain ⟨c, run, hget⟩ := proxy.exists_reach PushesOwn
    (bootWith {} [externalStream, externalStream])
    [(0, registerAs "a"), (0, .run), (0, .run), (0, .item (envelope (.inputAck {}))), (0, .run),
      (0, .run), (0, .run), (1, registerAs "a"), (1, .run), (1, .run),
      (1, .item (envelope (.uiResult {}))), (1, .run), (1, .run), (1, .run)]
    (fun c => (c.shared.instances.inner.lookup "a").map (fun inst =>
      (inst.token, inst.inbound.items)) = some (2, [{ payload := some (.uiResult {}) }]))
    (by decide +kernel)
  exact ⟨c, run, hget, queuesOwned_of_pushesOwn hboot run⟩

/-- Stream `0` reads an ack and passes its check; stream `1` is inserted under the
same id; then stream `0` pushes the ack into the queue of stream `1`. -/
theorem not_queuesOwned_stale_push :
    ¬ ∀ c₀ c, Boot c₀ → proxy.Reach Pool.anyStep c₀ c → QueuesOwned c := by
  intro hall
  have hboot : Boot (bootWith {} [externalStream, externalStream]) :=
    boot_bootWith (by simp [externalStream, Task.Fresh])
  obtain ⟨c, run, htask, hget⟩ := proxy.exists_reach Pool.anyStep
    (bootWith {} [externalStream, externalStream])
    [(0, registerAs "a"), (0, .run), (0, .run), (0, .item (envelope (.inputAck {}))), (0, .run),
      (1, registerAs "a"), (1, .run), (1, .run), (0, .run), (0, .run)]
    (fun c => c.task 1 = .session ⟨.external, { instanceId := "a" }, 2, [], .next⟩ ∧
      (c.shared.instances.inner.lookup "a").map (fun inst => (inst.token, inst.inbound.items)) =
        some (2, [{ payload := some (.inputAck {}) }]))
    (by decide +kernel)
  obtain ⟨inst, hl, hinst⟩ := Option.map_eq_some_iff.mp hget
  obtain ⟨htok, hitems⟩ := Prod.mk.inj hinst
  obtain ⟨t, s, ht, ho, hsub⟩ := hall _ c hboot run "a" inst hl
  have inv := SessionsInv.of_reach hboot run
  obtain ⟨-, rfl⟩ := inv.owner_unique (Task.handler_eq_some.mpr ht)
    (Task.handler_eq_some.mpr htask) ho trivial htok
  rw [hitems] at hsub
  exact absurd (List.sublist_nil.mp hsub) (by simp)

end CsmProxy
