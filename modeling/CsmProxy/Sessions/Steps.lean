import CsmProxy.Sessions.Frame

/-!
# What a stream's handler does to the sessions

`Session.step_cases` says once what one section of a handler can do to the entries
of the instance map: take a token, insert its entry, record a heartbeat, remove its
entry, or leave every session as it is. `Session.step_local` keeps the facts about
the handler itself.
-/

namespace CsmProxy

open Foundations

/-- `inst'` is the same session with the same heartbeat. -/
structure Instance.Same (inst inst' : Instance) : Prop where
  token : inst'.token = inst.token
  register : inst'.register = inst.register
  lastHeartbeat : inst'.lastHeartbeat = inst.lastHeartbeat

theorem Instance.Same.refl (inst : Instance) : inst.Same inst := ⟨rfl, rfl, rfl⟩

theorem Instance.Keeps.same {inst inst' : Instance} (h : inst.Keeps inst') : inst.Same inst' :=
  ⟨h.token, h.register, h.lastHeartbeat⟩

namespace InstanceMap

/-- The same sessions are connected, and no token was handed out. -/
structure Same (m m' : InstanceMap) : Prop where
  nextToken : m'.nextToken = m.nextToken
  entry : ∀ id, Option.Rel Instance.Same (m.inner.lookup id) (m'.inner.lookup id)

theorem Same.of_inner {m m' : InstanceMap} (ht : m'.nextToken = m.nextToken)
    (hi : m'.inner = m.inner) : m.Same m' := by
  refine ⟨ht, fun id => ?_⟩
  rw [hi]
  cases m.inner.lookup id with
  | none => exact .none
  | some inst => exact .some (.refl inst)

theorem Keeps.same {m m' : InstanceMap} (h : m.Keeps m') : m.Same m' := by
  refine ⟨h.nextToken, fun id => ?_⟩
  have hr := h.entry id
  generalize m.inner.lookup id = o, m'.inner.lookup id = o' at hr ⊢
  cases hr with
  | none => exact .none
  | some hk => exact .some hk.same

theorem Same.of_modify {m : InstanceMap} {id : String} {f : Instance → Instance}
    (hf : ∀ inst : Instance, inst.Same (f inst)) : m.Same (m.modify id f) :=
  ⟨rfl, rel_modify .refl hf⟩

theorem enqueueInbound_same (m : InstanceMap) (id : String) (msg : SimToServer) :
    m.Same (m.enqueueInbound id msg) := by
  refine Same.of_modify fun inst => ?_
  split
  · exact .refl inst
  · split
    · exact .refl inst
    · exact ⟨rfl, rfl, rfl⟩

theorem Same.some_right {m m' : InstanceMap} (h : m.Same m') {id : String} {inst' : Instance}
    (h' : m'.inner.lookup id = some inst') :
    ∃ inst, m.inner.lookup id = some inst ∧ inst.Same inst' :=
  exists_of_rel (h.entry id) h'

theorem owns_eq_true {m : InstanceMap} {id : String} {token : Nat} :
    m.owns id token = true ↔ ∃ inst, m.inner.lookup id = some inst ∧ inst.token = token := by
  unfold owns
  cases m.inner.lookup id <;> simp

theorem lookup_removeEntry {m : InstanceMap} {id id' : String} {token : Nat} {inst : Instance}
    (h : (m.removeEntry id token).inner.lookup id' = some inst) :
    m.inner.lookup id' = some inst ∧ ¬ (id' = id ∧ inst.token = token) := by
  unfold removeEntry at h
  split at h
  · change Finmap.lookup id' (m.inner.erase id) = some inst at h
    rw [HashMap.lookup_erase_ite] at h
    split at h
    · cases h
    · rename_i hne
      exact ⟨h, fun hc => hne hc.1⟩
  · rename_i hown
    refine ⟨h, ?_⟩
    rintro ⟨rfl, ht⟩
    exact hown (owns_eq_true.mpr ⟨inst, h, ht⟩)

end InstanceMap

/-! ## Subcalls -/

theorem PushPc.step_cases {id : String} {msg : SimToServer} {h h' : Host} {pc : PushPc}
    {out : Option PushPc} (hs : pc.step id msg h = (h', out)) :
    (pc = .enqueue ∧ h'.instances = h.instances.enqueueInbound id msg ∧ out = none) ∨
      (pc ≠ .enqueue ∧ h'.instances.inner = h.instances.inner ∧
        h'.instances.nextToken = h.instances.nextToken ∧ ∃ pc', out = some pc') := by
  cases pc with
  | complete =>
    cases hs
    obtain ⟨hi, ht, -⟩ := h.instances.takeMatching_frame msg
    exact Or.inr ⟨by simp, hi, ht, _, rfl⟩
  | forget tx => cases hs; exact Or.inr ⟨by simp, rfl, rfl, _, rfl⟩
  | reply tx => cases hs; exact Or.inr ⟨by simp, rfl, rfl, _, rfl⟩
  | enqueue => cases hs; exact Or.inl ⟨rfl, rfl, rfl⟩

theorem RemovePc.step_cases {id : String} {token : Nat} {h h' : Host} {pc : RemovePc} {i : Choice}
    {out : Option RemovePc} (hs : pc.step id token h i = some (h', out)) :
    (pc = .entry ∧ h'.instances = h.instances.removeEntry id token ∧
        out = if h.instances.owns id token then some .collect else none) ∨
      (pc ≠ .entry ∧ h'.instances.inner = h.instances.inner ∧
        h'.instances.nextToken = h.instances.nextToken ∧ out ≠ some .entry) := by
  cases step_section hs with
  | entry => exact Or.inl ⟨rfl, rfl, rfl⟩
  | collect | done | pick => exact Or.inr ⟨by simp, rfl, rfl, by simp⟩
  | take =>
    rw [Host.dropSender_instances]
    exact Or.inr ⟨by simp, rfl, rfl, by simp⟩

/-! ## The handler -/

namespace Session

/-- The message the read loop is working on. -/
def current (s : Session) : Option SimToServer :=
  match s.pc with
  | .owns (.message msg) => some msg
  | .heartbeat _ msg => some msg
  | .push msg _ => some msg
  | _ => none

/-- The handler's last `remove_if` is past its section on the map. -/
def Gone (s : Session) : Prop :=
  match s.pc with
  | .remove .entry => False
  | .remove _ | .ended => True
  | _ => False

/-- What the handler knows by itself. -/
structure Local (s : Session) : Prop where
  valid : s.HasToken ∨ s.pc = .allocToken → isValidInstanceId s.register.instanceId = true
  current : ∀ msg, s.current = some msg → ∃ front, s.received = front ++ [msg]
  heartbeat : ∀ hb msg, s.pc = .heartbeat hb msg → msg.payload = some (.heartbeat hb)

theorem Entered.hasToken {s : Session} (h : s.Entered) : s.HasToken := by
  obtain ⟨dialler, register, token, received, pc⟩ := s
  cases pc <;> first | exact h.elim | trivial

theorem Gone.entered {s : Session} (h : s.Gone) : s.Entered := by
  obtain ⟨dialler, register, token, received, pc⟩ := s
  cases pc <;> first | exact h.elim | trivial

/-- From `s` to `s'` the handler moves on without touching an entry. -/
structure Quiet (s s' : Session) : Prop where
  hasToken : s'.HasToken → s.HasToken
  entered : s.Entered ↔ s'.Entered
  gone : s'.Gone → s.Gone
  token : s'.token = s.token
  register : s.HasToken → s'.register = s.register
  received : s'.received = s.received
  current : s'.current = s.current ∨ s'.current = none

/-- What one section of a handler does to the sessions. -/
inductive Effect (h : Host) (s : Session) (h' : Host) (s' : Session) : Prop
  | quiet (inner : h'.instances.inner = h.instances.inner)
      (nextToken : h'.instances.nextToken = h.instances.nextToken) (quiet : s.Quiet s')
  | read (msg : SimToServer) (pc : s.pc = .next) (map : h' = h)
      (next : s' = { s with received := s.received ++ [msg], pc := .owns (.message msg) })
  | enqueue (msg : SimToServer) (pc : s.pc = .push msg .enqueue)
      (map : h'.instances = h.instances.enqueueInbound s.register.instanceId msg)
      (next : s' = { s with pc := afterPush msg })
  | allocToken (pc : s.pc = .allocToken) (map : h'.instances = h.instances.allocToken.2)
      (next : s' = { s with token := h.instances.nextToken, pc := .insert })
  | insert (pc : s.pc = .insert)
      (map : h'.instances =
        h.instances.insertInstance s.token s.register queueCapacity (.new queueCapacity))
      (next : s' = { s with pc := .next })
  | heartbeat (hb : Heartbeat) (msg : SimToServer) (pc : s.pc = .heartbeat hb msg)
      (map : h'.instances = h.instances.setHeartbeat s.register.instanceId s.token hb)
      (next : s' = { s with pc := .push msg .complete })
  | remove (entered : s.Entered)
      (map : h'.instances = h.instances.removeEntry s.register.instanceId s.token)
      (pc : SessionPc) (next : s' = { s with pc := pc }) (entered' : s'.Entered)
      (current : s'.current = none)

theorem quiet_pc {s : Session} {pc : SessionPc} (h : s.Entered) (h' : { s with pc := pc }.Entered)
    (hg : { s with pc := pc }.Gone → s.Gone)
    (hc : { s with pc := pc }.current = s.current ∨ { s with pc := pc }.current = none) :
    s.Quiet { s with pc := pc } where
  hasToken _ := h.hasToken
  entered := iff_of_true h h'
  gone := hg
  token := rfl
  register _ := rfl
  received := rfl
  current := hc

theorem accept_quiet {s : Session} (hpc : s.pc = .first) (item : StreamItem) :
    s.Quiet (s.accept item) := by
  obtain ⟨dialler, register, token, received, pc⟩ := s
  obtain rfl : pc = .first := hpc
  have hstay : ∀ register' pc', (pc' = .allocToken ∨ ∃ text, pc' = .refused text) →
      Session.Quiet ⟨dialler, register, token, received, .first⟩
        ⟨dialler, register', token, received, pc'⟩ := by
    rintro register' pc' (rfl | ⟨text, rfl⟩)
    all_goals
      exact ⟨fun h => h.elim, Iff.rfl, fun h => h.elim, rfl, fun h => h.elim, rfl, Or.inl rfl⟩
  cases item with
  | message msg =>
    simp only [accept]
    split
    · split
      · exact hstay _ _ (Or.inl rfl)
      · exact hstay _ _ (Or.inr ⟨_, rfl⟩)
    · exact hstay _ _ (Or.inr ⟨_, rfl⟩)
  | error err => exact hstay _ _ (Or.inr ⟨_, rfl⟩)
  | closed => exact hstay _ _ (Or.inr ⟨_, rfl⟩)

theorem dispatch_quiet {s : Session} {item : StreamItem} (hpc : s.pc = .owns item) :
    s.Quiet { s with pc := dispatch item } := by
  obtain ⟨dialler, register, token, received, pc⟩ := s
  obtain rfl : pc = .owns item := hpc
  cases item with
  | message msg =>
    simp only [dispatch]
    split <;> exact quiet_pc trivial trivial (fun h => h.elim) (Or.inl rfl)
  | error err => exact quiet_pc trivial trivial (fun h => h.elim) (Or.inr rfl)
  | closed => exact quiet_pc trivial trivial (fun h => h.elim) (Or.inr rfl)

theorem afterPush_entered (s : Session) (msg : SimToServer) :
    { s with pc := afterPush msg }.Entered ∧ ¬ { s with pc := afterPush msg }.Gone ∧
      { s with pc := afterPush msg }.current = none := by
  unfold afterPush
  split <;> exact ⟨trivial, fun h => h.elim, rfl⟩

/-- **Inversion.** What one section of a handler can do to the sessions. -/
theorem step_cases {h h' : Host} {s s' : Session} {i : Choice}
    (hs : s.step h i = some (h', s')) : Effect h s h' s' := by
  obtain ⟨dialler, register, token, received, pc⟩ := s
  cases step_section hs with
  | accept hpc hdial => exact .quiet rfl rfl (accept_quiet hpc _)
  | allocToken hpc => exact .allocToken hpc rfl rfl
  | insert hpc => exact .insert hpc rfl rfl
  | read hpc => exact .read _ hpc rfl rfl
  | owned hpc howns => exact .quiet rfl rfl (dispatch_quiet hpc)
  | heartbeat hpc => exact .heartbeat _ _ hpc rfl rfl
  | closed hpc | failed hpc =>
    obtain rfl : pc = .next := hpc
    exact .quiet rfl rfl (quiet_pc trivial trivial (fun h => h.elim) (Or.inl rfl))
  | replaced hpc hlost =>
    obtain rfl : pc = .owns _ := hpc
    exact .quiet rfl rfl (quiet_pc trivial trivial (fun h => h.elim) (Or.inr rfl))
  | leave hpc =>
    obtain rfl : pc = .leaving := hpc
    exact .quiet rfl rfl (quiet_pc trivial trivial (fun h => h.elim) (Or.inl rfl))
  | push hpc hp =>
    obtain rfl : pc = .push _ _ := hpc
    rcases PushPc.step_cases hp with ⟨rfl, hm, rfl⟩ | ⟨-, hi, ht, sub', rfl⟩
    · exact .enqueue _ rfl hm rfl
    · exact .quiet hi ht (quiet_pc trivial trivial (fun h => h.elim) (Or.inl rfl))
  | @removeGoodbye sub i h' out hpc hp =>
    obtain rfl : pc = .removeGoodbye sub := hpc
    rcases RemovePc.step_cases hp with ⟨-, hm, -⟩ | ⟨-, hi, ht, -⟩
    · exact .remove trivial hm _ rfl (by cases out <;> trivial) (by cases out <;> rfl)
    · refine .quiet hi ht (quiet_pc trivial ?_ ?_ ?_)
      · cases out <;> trivial
      · cases out <;> exact fun h => h.elim
      · cases out <;> exact Or.inl rfl
  | @remove sub i h' out hpc hp =>
    obtain rfl : pc = .remove sub := hpc
    rcases RemovePc.step_cases hp with ⟨-, hm, -⟩ | ⟨hne, hi, ht, -⟩
    · exact .remove trivial hm _ rfl (by cases out <;> trivial) (by cases out <;> rfl)
    · refine .quiet hi ht (quiet_pc trivial ?_ ?_ ?_)
      · cases out <;> trivial
      · intro _
        cases sub <;> first | exact absurd rfl hne | trivial
      · cases out <;> exact Or.inl rfl

theorem local_of_idle {s : Session} (hv : isValidInstanceId s.register.instanceId = true)
    (hc : s.current = none) : s.Local := by
  refine ⟨fun _ => hv, fun msg h => ?_, fun hb msg h => ?_⟩
  · rw [hc] at h
    cases h
  · rw [current, h] at hc
    cases hc

theorem dispatch_local {item : StreamItem} {s : Session}
    (hc : ∀ msg, item = .message msg → ∃ front, s.received = front ++ [msg])
    (hv : isValidInstanceId s.register.instanceId = true) :
    { s with pc := dispatch item }.Local := by
  cases item with
  | error err => exact local_of_idle hv rfl
  | closed => exact local_of_idle hv rfl
  | message msg =>
    obtain ⟨front, hfront⟩ := hc msg rfl
    simp only [dispatch]
    split
    · rename_i hb hp
      refine ⟨fun _ => hv, ?_, ?_⟩
      · intro msg' h
        cases h
        exact ⟨front, hfront⟩
      · intro hb' msg' h
        cases h
        exact hp
    · refine ⟨fun _ => hv, ?_, fun hb msg h => by cases h⟩
      intro msg' h
      cases h
      exact ⟨front, hfront⟩

theorem accept_local {s : Session} (item : StreamItem) : (s.accept item).Local := by
  have hrefused : ∀ text, { s with pc := .refused text }.Local := by
    intro text
    refine ⟨?_, fun msg h => ?_, fun hb msg h => ?_⟩
    · rintro (h | h)
      · exact h.elim
      · cases h
    · cases h
    · cases h
  cases item with
  | error err => exact hrefused err
  | closed => exact hrefused _
  | message msg =>
    simp only [accept]
    split
    · split
      · rename_i hv
        exact local_of_idle hv rfl
      · exact hrefused _
    · exact hrefused _

/-- What a handler knows by itself stays true. -/
theorem step_local {h h' : Host} {s s' : Session} {i : Choice}
    (hs : s.step h i = some (h', s')) (hl : s.Local) : s'.Local := by
  obtain ⟨dialler, register, token, received, pc⟩ := s
  obtain ⟨hvalid, hcurrent, hheartbeat⟩ := hl
  cases step_section hs with
  | @accept item hpc hdial => exact accept_local item
  | allocToken hpc => exact local_of_idle (hvalid (Or.inr hpc)) rfl
  | insert hpc | closed hpc | failed hpc | leave hpc | replaced hpc hlost =>
    obtain rfl : pc = _ := hpc
    exact local_of_idle (hvalid (Or.inl trivial)) rfl
  | @read msg hpc =>
    obtain rfl : pc = .next := hpc
    refine ⟨fun _ => hvalid (Or.inl trivial), fun msg' h => ?_, fun hb msg h => by cases h⟩
    cases h
    exact ⟨received, rfl⟩
  | @owned item hpc howns =>
    obtain rfl : pc = .owns item := hpc
    refine dispatch_local (s := ⟨dialler, register, token, received, .owns item⟩) ?_
      (hvalid (Or.inl trivial))
    rintro msg rfl
    exact hcurrent msg rfl
  | @heartbeat hb msg hpc =>
    obtain rfl : pc = .heartbeat hb msg := hpc
    exact ⟨fun _ => hvalid (Or.inl trivial), hcurrent, fun hb msg h => by cases h⟩
  | @push msg sub h' out hpc hp =>
    obtain rfl : pc = .push msg sub := hpc
    have hv := hvalid (Or.inl trivial)
    cases out with
    | none =>
      exact local_of_idle hv
        (afterPush_entered ⟨dialler, register, token, received, .push msg sub⟩ msg).2.2
    | some sub' => exact ⟨fun _ => hv, hcurrent, fun hb msg h => by cases h⟩
  | @removeGoodbye sub i h' out hpc hp | @remove sub i h' out hpc hp =>
    obtain rfl : pc = _ := hpc
    exact local_of_idle (hvalid (Or.inl trivial)) (by cases out <;> rfl)

/-! ## Who a stream is -/

/-- The first message of the stream was a `Register`. -/
def Registered (s : Session) : Prop := s.HasToken ∨ s.pc = .allocToken

/-- What identifies a stream is fixed when it is accepted, its token when it is inserted. -/
structure Identity (h : Host) (i : Choice) (s s' : Session) : Prop where
  dialler : s'.dialler = s.dialler
  entered : s.Entered → s'.Entered ∧ s'.token = s.token ∧ s'.register = s.register
  token : s'.HasToken → (s.HasToken ∧ s'.token = s.token) ∨ s'.token = h.instances.nextToken
  register : s'.Registered → (s.Registered ∧ s'.register = s.register) ∨
    s.pc = .first ∧ s.canDial h = true ∧
      ∃ msg, i = .item (.message msg) ∧ msg.payload = some (.register s'.register)

theorem Identity.of_hasToken {h : Host} {i : Choice} {s s' : Session} (ht : s.HasToken)
    (he' : s'.Entered) (hdialler : s'.dialler = s.dialler) (htoken : s'.token = s.token)
    (hregister : s'.register = s.register) : Identity h i s s' :=
  ⟨hdialler, fun _ => ⟨he', htoken, hregister⟩, fun _ => Or.inl ⟨ht, htoken⟩,
    fun _ => Or.inl ⟨Or.inl ht, hregister⟩⟩

theorem accept_identity {h : Host} {s : Session} {item : StreamItem} (hpc : s.pc = .first)
    (hdial : s.canDial h = true) : Identity h (.item item) s (s.accept item) := by
  have hentered : ¬ s.Entered := by rw [Entered, hpc]; exact fun hf => hf
  have hrefused : ∀ text, Identity h (.item item) s { s with pc := .refused text } := by
    intro text
    refine ⟨rfl, fun he => absurd he hentered, fun ht => ht.elim, ?_⟩
    rintro (ht | ht)
    · exact ht.elim
    · cases ht
  cases item with
  | error err => exact hrefused err
  | closed => exact hrefused _
  | message msg =>
    simp only [accept]
    split
    · rename_i register hp
      split
      · exact ⟨rfl, fun he => absurd he hentered, fun ht => ht.elim,
          fun _ => Or.inr ⟨hpc, hdial, msg, rfl, hp⟩⟩
      · exact hrefused _
    · exact hrefused _

theorem step_identity {h h' : Host} {s s' : Session} {i : Choice}
    (hs : s.step h i = some (h', s')) : Identity h i s s' := by
  obtain ⟨dialler, register, token, received, pc⟩ := s
  cases step_section hs with
  | accept hpc hdial => exact accept_identity hpc hdial
  | allocToken hpc =>
    obtain rfl : pc = .allocToken := hpc
    exact ⟨rfl, fun he => he.elim, fun _ => Or.inr rfl, fun _ => Or.inl ⟨Or.inr rfl, rfl⟩⟩
  | insert hpc | closed hpc | failed hpc | read hpc | replaced hpc hlost | heartbeat hpc
  | leave hpc =>
    obtain rfl : pc = _ := hpc
    exact .of_hasToken trivial trivial rfl rfl rfl
  | @owned item hpc howns =>
    obtain rfl : pc = .owns item := hpc
    exact .of_hasToken trivial ((dispatch_quiet rfl).entered.mp trivial) rfl rfl rfl
  | @push msg sub h' out hpc hp =>
    obtain rfl : pc = .push msg sub := hpc
    refine .of_hasToken trivial ?_ rfl rfl rfl
    cases out with
    | none =>
      exact (afterPush_entered ⟨dialler, register, token, received, .push msg sub⟩ msg).1
    | some sub' => trivial
  | @removeGoodbye sub i h' out hpc hp | @remove sub i h' out hpc hp =>
    obtain rfl : pc = _ := hpc
    exact .of_hasToken trivial (by cases out <;> trivial) rfl rfl rfl

end Session

end CsmProxy
