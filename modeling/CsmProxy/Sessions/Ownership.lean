import CsmProxy.Sessions.Steps

/-!
# Who owns an entry

Every entry of the instance map belongs to exactly one stream: the one whose token
it holds, whose `Register` it shows and whose heartbeats it records. A stream that
was replaced touches nothing of its successor, and a stream that has ended owns
nothing. All of this holds at every point of every schedule of the proxy
(`session_ownership`).

The invariant is stated over the map and the handlers alone. Tokens are unique
because they are handed out once; everything else follows from who holds a token.
-/

namespace CsmProxy

open Foundations

/-- The stream that the task handles. -/
def Task.handler : Task → Option Session
  | .session s => some s
  | _ => none

theorem Task.handler_eq_some {t : Task} {s : Session} : t.handler = some s ↔ t = .session s := by
  cases t <;> simp [handler]

theorem Task.handler_eq_none {t : Task} (h : ∀ s, t ≠ .session s) : t.handler = none :=
  Option.eq_none_iff_forall_ne_some.mpr fun s hs => h s (handler_eq_some.mp hs)

/-- The handlers of a configuration, by task number. -/
def handlers (c : Config Host Task) (t : Nat) : Option Session := (c.task t).handler

/-- A step of the proxy either leaves all sessions alone or is a step of one handler. -/
theorem fire_sessions {c c' : Config Host Task} {me : Nat} {i : Choice}
    (hf : proxy.fire c me i = some c') :
    ((∀ s, c.task me ≠ .session s) ∧ c.shared.instances.Keeps c'.shared.instances ∧
        handlers c' = handlers c) ∨
      ∃ s s', c.task me = .session s ∧ s.step c.shared i = some (c'.shared, s') ∧
        handlers c' = Function.update (handlers c) me (some s') := by
  obtain ⟨hs, hother⟩ := fire_task hf
  by_cases ht : ∃ s, c.task me = .session s
  · obtain ⟨s, ht⟩ := ht
    rw [ht] at hs
    obtain ⟨s', hs', hstep⟩ := Task.step_session hs
    refine Or.inr ⟨s, s', ht, hstep, funext fun t => ?_⟩
    by_cases htm : t = me
    · subst htm
      rw [Function.update_self, handlers, hs', Task.handler]
    · rw [Function.update_of_ne htm, handlers, handlers, hother t htm]
  · have ht' : ∀ s, c.task me ≠ .session s := fun s h => ht ⟨s, h⟩
    obtain ⟨hk, hl⟩ := Task.step_keeps hs ht'
    refine Or.inl ⟨ht', hk, funext fun t => ?_⟩
    by_cases htm : t = me
    · subst htm
      exact (Task.handler_eq_none hl).trans (Task.handler_eq_none ht').symm
    · rw [handlers, handlers, hother t htm]

/-! ## The invariant -/

/-- The stream `s` owns the entry `inst` under `id`. -/
structure Session.Owns (s : Session) (id : String) (inst : Instance) : Prop where
  entered : s.Entered
  running : ¬ s.Gone
  token : inst.token = s.token
  register : inst.register = s.register
  key : s.register.instanceId = id
  heartbeat : ∀ hb, inst.lastHeartbeat = some hb →
    ∃ msg ∈ s.received, msg.payload = some (.heartbeat hb)

/-- What relates the map to the handlers of the streams. -/
structure SessionsInv (m : InstanceMap) (ss : Nat → Option Session) : Prop where
  locals : ∀ t s, ss t = some s → s.Local
  fresh : ∀ t s, ss t = some s → s.HasToken → s.token < m.nextToken
  distinct : ∀ t t' s s', ss t = some s → ss t' = some s' → s.HasToken → s'.HasToken →
    s.token = s'.token → t = t'
  owner : ∀ id inst, m.inner.lookup id = some inst → ∃ t s, ss t = some s ∧ s.Owns id inst

/-- From `s` to `s'` the handler moves on and keeps its identity. -/
structure Session.Advances (s s' : Session) : Prop where
  hasToken : s'.HasToken → s.HasToken
  entered : s.Entered → s'.Entered
  token : s'.token = s.token
  register : s.HasToken → s'.register = s.register
  received : s.received <+: s'.received

namespace Session

theorem Quiet.advances {s s' : Session} (h : s.Quiet s') : s.Advances s' :=
  ⟨h.hasToken, h.entered.mp, h.token, h.register, h.received ▸ List.prefix_refl _⟩

theorem advances_pc {s : Session} {pc : SessionPc} (h : s.HasToken)
    (he : s.Entered → { s with pc := pc }.Entered) : s.Advances { s with pc := pc } :=
  ⟨fun _ => h, he, rfl, fun _ => rfl, List.prefix_refl _⟩

theorem Owns.same {s : Session} {id : String} {inst inst' : Instance} (h : s.Owns id inst)
    (hs : inst.Same inst') : s.Owns id inst' where
  entered := h.entered
  running := h.running
  token := hs.token.trans h.token
  register := hs.register.trans h.register
  key := h.key
  heartbeat hb hhb := h.heartbeat hb (hs.lastHeartbeat.symm.trans hhb)

theorem Owns.advance {s s' : Session} {id : String} {inst : Instance} (h : s.Owns id inst)
    (ha : s.Advances s') (hg : ¬ s'.Gone) : s'.Owns id inst where
  entered := ha.entered h.entered
  running := hg
  token := h.token.trans ha.token.symm
  register := h.register.trans (ha.register h.entered.hasToken).symm
  key := (congrArg Register.instanceId (ha.register h.entered.hasToken)).trans h.key
  heartbeat hb hhb := by
    obtain ⟨msg, hmem, hp⟩ := h.heartbeat hb hhb
    exact ⟨msg, ha.received.subset hmem, hp⟩

end Session

theorem update_eq_some {ss : Nat → Option Session} {me t : Nat} {s s' : Session}
    (h : Function.update ss me (some s') t = some s) : (t = me ∧ s = s') ∨ (t ≠ me ∧ ss t = some s) := by
  by_cases ht : t = me
  · subst ht
    rw [Function.update_self] at h
    exact Or.inl ⟨rfl, (Option.some.inj h).symm⟩
  · rw [Function.update_of_ne ht] at h
    exact Or.inr ⟨ht, h⟩

namespace SessionsInv

variable {m m' : InstanceMap} {ss : Nat → Option Session}

/-- Two streams that own an entry with one token are the same task. -/
theorem owner_unique (h : SessionsInv m ss) {t t' : Nat} {s s' : Session} {id : String}
    {inst : Instance} (ht : ss t = some s) (ht' : ss t' = some s') (ho : s.Owns id inst)
    (hs' : s'.HasToken) (htok : inst.token = s'.token) : t = t' ∧ s = s' := by
  have hst : s.token = s'.token := ho.token.symm.trans htok
  have heq : t = t' := h.distinct t t' s s' ht ht' ho.entered.hasToken hs' hst
  subst heq
  exact ⟨rfl, Option.some.inj (ht.symm.trans ht')⟩

/-- An entry that holds the token of a stream is the stream's. -/
theorem owns_of_token (h : SessionsInv m ss) {t : Nat} {s : Session} {id : String}
    {inst : Instance} (ht : ss t = some s) (hs : s.HasToken) (hl : m.inner.lookup id = some inst)
    (htok : inst.token = s.token) : s.Owns id inst := by
  obtain ⟨t', s', ht', ho⟩ := h.owner id inst hl
  obtain ⟨-, rfl⟩ := h.owner_unique ht' ht ho hs htok
  exact ho

/-- The map changes: every entry is an old session or has an owner. -/
theorem set_entries (h : SessionsInv m ss) (hn : m'.nextToken = m.nextToken)
    (he : ∀ id inst', m'.inner.lookup id = some inst' →
      (∃ inst, m.inner.lookup id = some inst ∧ inst.Same inst') ∨
        ∃ t s, ss t = some s ∧ s.Owns id inst') : SessionsInv m' ss where
  locals := h.locals
  fresh t s ht hs := by
    rw [hn]
    exact h.fresh t s ht hs
  distinct := h.distinct
  owner id inst' hl := by
    rcases he id inst' hl with ⟨inst, hinst, hsame⟩ | howned
    · obtain ⟨t, s, ht, ho⟩ := h.owner id inst hinst
      exact ⟨t, s, ht, ho.same hsame⟩
    · exact howned

theorem same (h : SessionsInv m ss) (hm : m.Same m') : SessionsInv m' ss :=
  h.set_entries hm.nextToken fun _ _ hl => Or.inl (hm.some_right hl)

/-- A handler moves on. It must not be gone while it still owns an entry. -/
theorem advance (h : SessionsInv m ss) {me : Nat} {s s' : Session} (hs : ss me = some s)
    (ha : s.Advances s') (hl : s'.Local)
    (hg : ∀ id inst, m.inner.lookup id = some inst → s.Owns id inst → ¬ s'.Gone) :
    SessionsInv m (Function.update ss me (some s')) where
  locals t s₁ ht := by
    rcases update_eq_some ht with ⟨-, rfl⟩ | ⟨-, ht⟩
    · exact hl
    · exact h.locals t s₁ ht
  fresh t s₁ ht hs₁ := by
    rcases update_eq_some ht with ⟨-, rfl⟩ | ⟨-, ht⟩
    · rw [ha.token]
      exact h.fresh me s hs (ha.hasToken hs₁)
    · exact h.fresh t s₁ ht hs₁
  distinct t t' s₁ s₂ ht ht' h₁ h₂ htok := by
    rcases update_eq_some ht with ⟨rfl, rfl⟩ | ⟨-, hold⟩ <;>
      rcases update_eq_some ht' with ⟨rfl, rfl⟩ | ⟨-, hold'⟩
    · rfl
    · rw [ha.token] at htok
      exact h.distinct _ _ _ _ hs hold' (ha.hasToken h₁) h₂ htok
    · rw [ha.token] at htok
      exact h.distinct _ _ _ _ hold hs h₁ (ha.hasToken h₂) htok
    · exact h.distinct _ _ _ _ hold hold' h₁ h₂ htok
  owner id inst hid := by
    obtain ⟨t, s₁, ht, ho⟩ := h.owner id inst hid
    by_cases htm : t = me
    · subst htm
      obtain rfl : s₁ = s := Option.some.inj (ht.symm.trans hs)
      exact ⟨t, s', Function.update_self .., ho.advance ha (hg id inst hid ho)⟩
    · exact ⟨t, s₁, (Function.update_of_ne htm ..).trans ht, ho⟩

/-- `insert` hands out the next token. -/
theorem allocToken (h : SessionsInv m ss) {me : Nat} {s : Session} (hs : ss me = some s)
    (hpc : s.pc = .allocToken) :
    SessionsInv m.allocToken.2
      (Function.update ss me (some { s with token := m.nextToken, pc := .insert })) where
  locals t s₁ ht := by
    rcases update_eq_some ht with ⟨-, rfl⟩ | ⟨-, ht⟩
    · exact Session.local_of_idle ((h.locals me s hs).valid (Or.inr hpc)) rfl
    · exact h.locals t s₁ ht
  fresh t s₁ ht hs₁ := by
    change s₁.token < m.nextToken + 1
    rcases update_eq_some ht with ⟨-, rfl⟩ | ⟨-, ht⟩
    · exact Nat.lt_succ_self _
    · have hlt := h.fresh t s₁ ht hs₁
      omega
  distinct t t' s₁ s₂ ht ht' h₁ h₂ htok := by
    rcases update_eq_some ht with ⟨rfl, rfl⟩ | ⟨-, hold⟩ <;>
      rcases update_eq_some ht' with ⟨rfl, rfl⟩ | ⟨-, hold'⟩
    · rfl
    · have hlt := h.fresh _ _ hold' h₂
      exact absurd htok (by dsimp only; omega)
    · have hlt := h.fresh _ _ hold h₁
      exact absurd htok (by dsimp only; omega)
    · exact h.distinct _ _ _ _ hold hold' h₁ h₂ htok
  owner id inst hid := by
    obtain ⟨t, s₁, ht, ho⟩ := h.owner id inst hid
    have htm : t ≠ me := by
      rintro rfl
      obtain rfl : s₁ = s := Option.some.inj (ht.symm.trans hs)
      have he := ho.entered
      rw [Session.Entered, hpc] at he
      exact he
    exact ⟨t, s₁, (Function.update_of_ne htm ..).trans ht, ho⟩

/-- A section of a handler keeps the invariant. -/
theorem step (h : SessionsInv m ss) {me : Nat} {g g' : Host} {s s' : Session} {i : Choice}
    (hm : g.instances = m) (hs : ss me = some s) (hstep : s.step g i = some (g', s')) :
    SessionsInv g'.instances (Function.update ss me (some s')) := by
  subst hm
  have hl : s'.Local := Session.step_local hstep (h.locals me s hs)
  rcases Session.step_cases hstep with ⟨hi, ht, hq⟩ | ⟨msg, hpc, hmap, rfl⟩ |
    ⟨msg, hpc, hmap, rfl⟩ | ⟨hpc, hmap, rfl⟩ | ⟨hpc, hmap, rfl⟩ | ⟨hb, msg, hpc, hmap, rfl⟩ |
    ⟨hent, hmap, pc, rfl, hent', -⟩
  · refine (h.same (.of_inner ht hi)).advance hs hq.advances hl fun id inst _ ho hgone => ?_
    exact ho.running (hq.gone hgone)
  · have htok : s.HasToken := by rw [Session.HasToken, hpc]; trivial
    subst hmap
    exact h.advance hs ⟨fun _ => htok, fun _ => trivial, rfl, fun _ => rfl,
      List.prefix_append _ _⟩ hl fun _ _ _ _ hgone => hgone
  · have htok : s.HasToken := by rw [Session.HasToken, hpc]; trivial
    obtain ⟨hent, hgone, -⟩ := Session.afterPush_entered s msg
    rw [hmap]
    refine (h.same (InstanceMap.enqueueInbound_same _ _ _)).advance hs ?_ hl fun _ _ _ _ => hgone
    exact Session.advances_pc htok fun _ => hent
  · rw [hmap]
    exact h.allocToken hs hpc
  · have htok : s.HasToken := by rw [Session.HasToken, hpc]; trivial
    have hnext : s.Advances { s with pc := .next } := Session.advances_pc htok fun _ => trivial
    have hadv := h.advance hs hnext hl fun _ _ _ _ hgone => hgone
    refine hadv.set_entries (by rw [hmap]; rfl) fun id inst' hid => ?_
    rw [hmap] at hid
    change Finmap.lookup id (g.instances.inner.insert _ _) = some inst' at hid
    rw [HashMap.lookup_insert_ite] at hid
    split at hid
    · rename_i hkey
      obtain rfl := Option.some.inj hid
      refine Or.inr ⟨me, _, Function.update_self .., trivial, fun hg => hg, rfl, rfl, hkey.symm, ?_⟩
      intro hb hhb
      cases hhb
    · exact Or.inl ⟨inst', hid, .refl inst'⟩
  · have hent : s.Entered := by rw [Session.Entered, hpc]; trivial
    have hadv : s.Advances { s with pc := .push msg .complete } :=
      Session.advances_pc hent.hasToken fun _ => trivial
    have hmap' : SessionsInv g'.instances ss := by
      refine h.set_entries (by rw [hmap]; rfl) fun id inst' hid => ?_
      rw [hmap] at hid
      simp only [InstanceMap.setHeartbeat, InstanceMap.lookup_modify] at hid
      cases hinst : g.instances.inner.lookup id with
      | none => simp [hinst] at hid
      | some inst =>
        simp only [hinst, Option.map_some] at hid
        split at hid
        · obtain rfl := Option.some.inj hid
          split
          · rename_i hkey htok
            have ho : s.Owns id inst := h.owns_of_token hs hent.hasToken hinst htok
            obtain ⟨front, hfront⟩ := (h.locals me s hs).current msg (by rw [Session.current, hpc])
            refine Or.inr ⟨me, s, hs, ho.entered, ho.running, ho.token, ho.register, ho.key, ?_⟩
            intro hb' hhb
            obtain rfl := Option.some.inj hhb
            refine ⟨msg, ?_, (h.locals me s hs).heartbeat hb msg hpc⟩
            rw [hfront]
            exact List.mem_append_right _ List.mem_cons_self
          · exact Or.inl ⟨inst, rfl, .refl inst⟩
        · obtain rfl := Option.some.inj hid
          exact Or.inl ⟨inst, rfl, .refl inst⟩
    exact hmap'.advance hs hadv hl fun _ _ _ _ hgone => hgone
  · have hmap' : SessionsInv g'.instances ss := by
      refine h.set_entries ?_ fun id inst' hid => ?_
      · rw [hmap]
        unfold InstanceMap.removeEntry
        split <;> rfl
      · rw [hmap] at hid
        exact Or.inl ⟨inst', (InstanceMap.lookup_removeEntry hid).1, .refl inst'⟩
    refine hmap'.advance hs (Session.advances_pc hent.hasToken fun _ => hent') hl ?_
    intro id inst hid ho
    rw [hmap] at hid
    exact absurd ⟨ho.key.symm, ho.token⟩ (InstanceMap.lookup_removeEntry hid).2

theorem of_boot {c : Config Host Task} (h : Boot c) :
    SessionsInv c.shared.instances (handlers c) := by
  have hfirst : ∀ t s, handlers c t = some s → s.pc = .first := by
    intro t s ht
    have hf := h.fresh t
    rw [Task.handler_eq_some.mp ht] at hf
    exact congrArg Session.pc hf
  obtain ⟨default, config, now, hshared⟩ := h.shared
  have hnone : ∀ t s, handlers c t = some s → ¬ s.HasToken := by
    intro t s ht hs
    rw [Session.HasToken, hfirst t s ht] at hs
    exact hs
  refine ⟨?_, ?_, ?_, ?_⟩
  · intro t s ht
    have hpc := hfirst t s ht
    refine ⟨?_, fun msg hc => ?_, fun hb msg hp => ?_⟩
    · rintro (hs | hs)
      · exact absurd hs (hnone t s ht)
      · rw [hpc] at hs
        cases hs
    · rw [Session.current, hpc] at hc
      cases hc
    · rw [hpc] at hp
      cases hp
  · intro t s ht hs
    exact absurd hs (hnone t s ht)
  · intro t t' s s' ht _ hs
    exact absurd hs (hnone t s ht)
  · intro id inst hl
    rw [hshared] at hl
    exact absurd (hl.symm.trans (HashMap.lookup_empty id)) (by simp)

/-- Every step of the proxy keeps the invariant. -/
theorem fire {c c' : Config Host Task} {me : Nat} {i : Choice}
    (h : SessionsInv c.shared.instances (handlers c)) (hf : proxy.fire c me i = some c') :
    SessionsInv c'.shared.instances (handlers c') := by
  rcases fire_sessions hf with ⟨-, hk, hh⟩ | ⟨s, s', ht, hs, hh⟩
  · rw [hh]
    exact h.same hk.same
  · rw [hh]
    exact h.step rfl (Task.handler_eq_some.mpr ht) hs

/-- The invariant holds at every point of every schedule. -/
theorem of_reach {ok : Pool.Guard Host Task Choice} {c₀ c : Config Host Task} (boot : Boot c₀)
    (run : proxy.Reach ok c₀ c) : SessionsInv c.shared.instances (handlers c) := by
  induction run with
  | refl => exact of_boot boot
  | tail _ _ hf ih => exact ih.fire hf

end SessionsInv

/-! ## What a step can do to an entry -/

/-- What a step of the task `t` can do to the entry of `id`: from `o` to `o'`. -/
inductive EntryStep (t : Task) (id : String) (o o' : Option Instance) : Prop
  | kept (same : Option.Rel Instance.Same o o')
  | inserted (s : Session) (task : t = .session s) (pc : s.pc = .insert)
      (key : s.register.instanceId = id) (new : ∃ inst', o' = some inst' ∧
        inst'.token = s.token ∧ inst'.register = s.register ∧ inst'.lastHeartbeat = none)
  | heartbeat (s : Session) (task : t = .session s) (hb : Heartbeat) (msg : SimToServer)
      (pc : s.pc = .heartbeat hb msg) (new : ∃ inst, o = some inst ∧ inst.token = s.token ∧
        o' = some { inst with lastHeartbeat := some hb })
  | removed (s : Session) (task : t = .session s) (old : ∃ inst, o = some inst ∧
      inst.token = s.token) (new : o' = none)

/-- Only the stream that holds the token of an entry records a heartbeat there or
removes it, and only the `insert` of another stream replaces it. -/
theorem fire_entry {c c' : Config Host Task} {me : Nat} {i : Choice}
    (hf : proxy.fire c me i = some c') (id : String) :
    EntryStep (c.task me) id (c.shared.instances.inner.lookup id)
      (c'.shared.instances.inner.lookup id) := by
  rcases fire_sessions hf with ⟨-, hk, -⟩ | ⟨s, s', ht, hs, -⟩
  · exact .kept (hk.same.entry id)
  rw [ht]
  have hrefl := fun id' => (InstanceMap.Same.of_inner (m := c.shared.instances) rfl rfl).entry id'
  rcases Session.step_cases hs with ⟨hi, -, -⟩ | ⟨msg, -, hmap, -⟩ | ⟨msg, -, hmap, -⟩ |
    ⟨-, hmap, -⟩ | ⟨hpc, hmap, -⟩ | ⟨hb, msg, hpc, hmap, -⟩ | ⟨-, hmap, -, -, -, -⟩
  · rw [hi]
    exact .kept (hrefl id)
  · rw [hmap]
    exact .kept (hrefl id)
  · rw [hmap]
    exact .kept ((InstanceMap.enqueueInbound_same _ _ _).entry id)
  · rw [hmap]
    exact .kept (hrefl id)
  · rw [hmap]
    change EntryStep _ _ _ (Finmap.lookup id (c.shared.instances.inner.insert _ _))
    rw [HashMap.lookup_insert_ite]
    split
    · rename_i hkey
      exact .inserted s rfl hpc hkey.symm ⟨_, rfl, rfl, rfl, rfl⟩
    · exact .kept (hrefl id)
  · rw [hmap]
    simp only [InstanceMap.setHeartbeat, InstanceMap.lookup_modify]
    split
    · cases hinst : c.shared.instances.inner.lookup id with
      | none => exact .kept .none
      | some inst =>
        rw [Option.map_some]
        split
        · rename_i htok
          exact .heartbeat s rfl hb msg hpc ⟨inst, rfl, htok, rfl⟩
        · exact .kept (.some (.refl inst))
    · exact .kept (hrefl id)
  · rw [hmap]
    unfold InstanceMap.removeEntry
    split
    · rename_i hown
      change EntryStep _ _ _ (Finmap.lookup id (c.shared.instances.inner.erase _))
      rw [HashMap.lookup_erase_ite]
      split
      · rename_i hkey
        subst hkey
        exact .removed s rfl (InstanceMap.owns_eq_true.mp hown) rfl
      · exact .kept (hrefl id)
    · exact .kept (hrefl id)

/-! ## The result -/

/-- The source compares tokens as `u64`. Until the counter has wrapped, a stream that
compares its token with the token of an entry gets the answer of the model. -/
theorem token_eq_iff_u64 {c₀ c : Config Host Task} (boot : Boot c₀)
    (run : proxy.Reach Pool.anyStep c₀ c) (hwrap : c.shared.instances.nextToken ≤ 2 ^ 64)
    {t : Nat} {s : Session} {id : String} {inst : Instance} (ht : c.task t = .session s)
    (hs : s.HasToken) (hid : c.shared.instances.inner.lookup id = some inst) :
    UInt64.ofNat inst.token = UInt64.ofNat s.token ↔ inst.token = s.token := by
  have inv := SessionsInv.of_reach boot run
  obtain ⟨t', s', ht', ho⟩ := inv.owner id inst hid
  have hinst : inst.token < 2 ^ 64 := by
    rw [ho.token]
    exact (inv.fresh t' s' ht' ho.entered.hasToken).trans_le hwrap
  have hstream : s.token < 2 ^ 64 :=
    (inv.fresh t s (Task.handler_eq_some.mpr ht) hs).trans_le hwrap
  refine ⟨fun h => ?_, fun h => by rw [h]⟩
  have htoNat := congrArg UInt64.toNat h
  rwa [UInt64.toNat_ofNat_of_lt' hinst, UInt64.toNat_ofNat_of_lt' hstream] at htoNat

end CsmProxy
