import CsmProxy.Sessions.Ownership
import CsmProxy.Spawn.StartStages

/-!
# Whose registration a call reports

`start_instance` spawns a child and then takes any entry of the id for it. A stream of
somebody else that is inserted between the already-connected check and the poll is
reported as the child, with the pid of the one and the `Register` of the other
(`not_startReports_stranger`). As long as only the child of a call is inserted under
the id while a call waits, the call reports its child (`startReports_of_ownRegister`).
-/

namespace CsmProxy

open Foundations

/-- The `Register` that this item of a stream carries. -/
def Choice.announces : Choice → Option Register
  | .item (.message msg) =>
    match msg.payload with
    | some (.register register) => some register
    | _ => none
  | _ => none

/-- A child that sends a `Register` sends its own process id. -/
def pidTrue (c : Config Host Task) (me : Nat) (i : Choice) : Bool :=
  match (handlers c me).map Session.dialler, i.announces with
  | some (.child child), some register =>
    (c.shared.process.lookup child).all fun p => register.pid = p.pid
  | _, _ => true

/-- The runs in which the registers of all children are true. -/
def PidsTrue : Pool.Guard Host Task Choice := fun c me i => pidTrue c me i = true

instance : ∀ (c : Config Host Task) (me : Nat) (i : Choice), Decidable (PidsTrue c me i) :=
  fun c me i => inferInstanceAs (Decidable (pidTrue c me i = true))

/-- The stream was dialled by a child of task `t`. -/
def Session.spawnedBy (h : Host) (s : Session) (t : Nat) : Bool :=
  match s.dialler with
  | .external => false
  | .child child => (h.process.lookup child).map Process.owner = some t

theorem Session.spawnedBy_iff {h : Host} {s : Session} {t : Nat} :
    s.spawnedBy h t = true ↔
      ∃ child p, s.dialler = .child child ∧ h.process.lookup child = some p ∧ p.owner = t := by
  unfold spawnedBy
  cases s.dialler <;> simp

/-- A stream that is about to be inserted under the id that the call of task `t` waits for
was dialled by the child of the call. -/
def undisturbed (t : Nat) (c : Config Host Task) (me : Nat) : Bool :=
  decide (∀ s ∈ handlers c me, s.pc = .insert → ∀ call ∈ (c.task t).starter, call.stage.Open →
    call.args.instanceId = s.register.instanceId → s.spawnedBy c.shared t = true)

/-- The guard of the runs in which the call of task `t` is only answered by its own child. -/
def OwnRegister (t : Nat) : Pool.Guard Host Task Choice :=
  fun c me i => pidTrue c me i = true ∧ undisturbed t c me = true

instance (t : Nat) : ∀ (c : Config Host Task) (me : Nat) (i : Choice),
    Decidable (OwnRegister t c me i) :=
  fun c me i => inferInstanceAs (Decidable (pidTrue c me i = true ∧ undisturbed t c me = true))

/-! ## Steps of calls and of streams -/

section

variable {c c' : Config Host Task} {me : Nat} {i : Choice}

/-- A stream after a step: unchanged, or the one that stepped. -/
theorem fire_identity (hf : proxy.fire c me i = some c') (t : Nat) :
    handlers c' t = handlers c t ∨ ∃ s s', t = me ∧ handlers c t = some s ∧
      handlers c' t = some s' ∧ s.Identity c.shared i s' := by
  rcases fire_sessions hf with ⟨-, -, hh⟩ | ⟨s, s', hme, hs, hh⟩
  · exact Or.inl (by rw [hh])
  · by_cases ht : t = me
    · subst ht
      exact Or.inr ⟨s, s', rfl, Task.handler_eq_some.mpr hme, by rw [hh, Function.update_self],
        Session.step_identity hs⟩
    · exact Or.inl (by rw [hh, Function.update_of_ne ht])

/-- The stream that a step leaves behind was there before, with the same dialler. -/
theorem fire_handler (hf : proxy.fire c me i = some c') {t : Nat} {s' : Session}
    (ht : handlers c' t = some s') :
    ∃ s, handlers c t = some s ∧ (s' = s ∨ t = me ∧ s.Identity c.shared i s') := by
  rcases fire_identity hf t with hh | ⟨s, s₁, rfl, hs, hs', hid⟩
  · exact ⟨s', hh.symm.trans ht, Or.inl rfl⟩
  · obtain rfl := Option.some.inj (ht.symm.trans hs')
    exact ⟨s, hs, Or.inr ⟨rfl, hid⟩⟩

end

/-! ## The invariant -/

/-- The reply of the call of task `t` is the registration of the child it has spawned. -/
structure Reported (c : Config Host Task) (t : Nat) (call : StartInstanceCall)
    (reply : StartReply) (s : Session) (child : Nat) (p : Process) : Prop where
  entered : s.Entered
  session : call.session = some s.token
  register : reply.register = s.register
  dialler : s.dialler = .child child
  process : c.shared.process.lookup child = some p
  owner : p.owner = t
  pid : reply.pid = p.pid
  registered : s.register.pid = p.pid

/-- The call of task `t`, and who may answer it. -/
structure ReportInv (t : Nat) (c : Config Host Task) : Prop where
  pid : ∀ t' s child, handlers c t' = some s → s.Registered → s.dialler = .child child →
    ∃ p, c.shared.process.lookup child = some p ∧ s.register.pid = p.pid
  none : ∀ call, c.task t = .startInstance call → call.stage = .outside ∨ call.stage = .before →
    ∀ child p, c.shared.process.lookup child = some p → p.owner ≠ t
  own : ∀ call pid, c.task t = .startInstance call → call.stage = .after pid →
    ∀ child p, c.shared.process.lookup child = some p → p.owner = t → p.pid = pid
  window : ∀ call, c.task t = .startInstance call → call.stage.Open →
    ∀ t' s inst, c.shared.instances.inner.lookup call.args.instanceId = some inst →
      handlers c t' = some s → s.HasToken → s.token = inst.token → s.spawnedBy c.shared t = true
  flag : ∀ call, c.task t = .startInstance call → call.connectedAtSpawn = false
  reported : ∀ call reply, c.task t = .startInstance call → call.Returned reply →
    ∃ t' s child p, handlers c t' = some s ∧ Reported c t call reply s child p

/-- The sessions of the map, and what the call makes of them. -/
structure StartInv (t : Nat) (c : Config Host Task) : Prop extends ReportInv t c where
  sessions : SessionsInv c.shared.instances (handlers c)

section

variable {c c' : Config Host Task} {me : Nat} {i : Choice}

/-- A step does not change who spawned what. -/
theorem spawnedBy_stays {h h' : Host} {p p' : Phase} {s s' : Session} {t : Nat}
    (he : SpawnEffect me h h' p p') (hd : s'.dialler = s.dialler) (hs : s.spawnedBy h t = true) :
    s'.spawnedBy h' t = true := by
  obtain ⟨child, p, hchild, hp, howner⟩ := Session.spawnedBy_iff.mp hs
  obtain ⟨p', hp', hb⟩ := he.process_stays hp
  exact Session.spawnedBy_iff.mpr ⟨child, p', hd.trans hchild, hp', hb.owner.trans howner⟩

/-- An entry after a step: there before with the same token, or just inserted. -/
theorem fire_inserted (hf : proxy.fire c me i = some c') {id : String} {inst' : Instance}
    (hl : c'.shared.instances.inner.lookup id = some inst') :
    (∃ inst, c.shared.instances.inner.lookup id = some inst ∧ inst'.token = inst.token) ∨
      ∃ s, handlers c me = some s ∧ s.pc = .insert ∧ s.register.instanceId = id ∧
        inst'.token = s.token := by
  rcases fire_entry hf id with hsame | ⟨s, hme, hpc, hkey, inst₁, hnew, htoken, -, -⟩ |
    ⟨s, -, hb, msg, -, inst, hinst, -, hnew⟩ | ⟨s, -, -, hnew⟩
  · rw [hl] at hsame
    generalize ho : c.shared.instances.inner.lookup id = o at hsame
    cases hsame with
    | some hs => exact Or.inl ⟨_, rfl, hs.token⟩
  · obtain rfl := Option.some.inj (hl.symm.trans hnew)
    exact Or.inr ⟨s, Task.handler_eq_some.mpr hme, hpc, hkey, htoken⟩
  · obtain rfl := Option.some.inj (hl.symm.trans hnew)
    exact Or.inl ⟨inst, hinst, rfl⟩
  · rw [hl] at hnew
    cases hnew

namespace StartInv

variable {t : Nat}

/-- In the window before the spawn the id is free. -/
theorem free (inv : StartInv t c) {call : StartInstanceCall}
    (ht : c.task t = .startInstance call) (hstage : call.stage = .before) :
    StartInstanceCall.connected c.shared call.args.instanceId = false := by
  unfold StartInstanceCall.connected InstanceMap.get
  cases hl : c.shared.instances.inner.lookup call.args.instanceId with
  | none => rfl
  | some inst =>
    obtain ⟨t', s, hs, ho⟩ := inv.sessions.owner _ inst hl
    have hopen : call.stage.Open := by rw [hstage]; trivial
    have hby := inv.window call ht hopen t' s inst hl hs ho.entered.hasToken ho.token.symm
    obtain ⟨child, p, -, hp, howner⟩ := Session.spawnedBy_iff.mp hby
    exact absurd howner (inv.none call ht (Or.inr hstage) child p hp)

/-- What a call finds in its loop is the registration of its child. -/
theorem report (inv : StartInv t c) {call : StartInstanceCall} {pid : UInt32}
    {snap : InstanceSnapshot} (ht : c.task t = .startInstance call) (hstage : call.stage = .after pid)
    (hget : c.shared.instances.get call.args.instanceId = some snap) :
    ∃ t' s child p, handlers c t' = some s ∧ Reported c t
      { call with pc := .returned (.ok (StartInstanceCall.answer call.args pid snap)),
                  session := some snap.token }
      (StartInstanceCall.answer call.args pid snap) s child p := by
  obtain ⟨inst, hl, rfl⟩ := Option.map_eq_some_iff.mp hget
  obtain ⟨t', s, hs, ho⟩ := inv.sessions.owner _ inst hl
  have hopen : call.stage.Open := by rw [hstage]; trivial
  have htok := ho.entered.hasToken
  have hby := inv.window call ht hopen t' s inst hl hs htok ho.token.symm
  obtain ⟨child, p, hchild, hp, howner⟩ := Session.spawnedBy_iff.mp hby
  obtain ⟨p', hp', hpid⟩ := inv.pid t' s child hs (Or.inl htok) hchild
  obtain rfl := Option.some.inj (hp.symm.trans hp')
  refine ⟨t', s, child, p, hs, ho.entered, ?_, ho.register, hchild, hp, howner, ?_, hpid⟩
  · exact congrArg some ho.token
  · exact (inv.own call pid ht hstage child p hp howner).symm

theorem step_pid (inv : StartInv t c) (guard : pidTrue c me i = true)
    (hf : proxy.fire c me i = some c') {t' : Nat} {s' : Session} {child : Nat}
    (ht : handlers c' t' = some s') (hr : s'.Registered) (hd : s'.dialler = .child child) :
    ∃ p, c'.shared.process.lookup child = some p ∧ s'.register.pid = p.pid := by
  obtain ⟨he, -⟩ := fire_spawn hf
  have hold : ∃ p, c.shared.process.lookup child = some p ∧ s'.register.pid = p.pid := by
    obtain ⟨s, hs, rfl | ⟨rfl, hid⟩⟩ := fire_handler hf ht
    · exact inv.pid t' s' child hs hr hd
    · rw [hid.dialler] at hd
      rcases hid.register hr with ⟨hreg, heq⟩ | ⟨-, hdial, msg, rfl, hpayload⟩
      · rw [heq]
        exact inv.pid t' s child hs hreg hd
      · rw [Session.canDial, hd] at hdial
        obtain ⟨p, hp⟩ := Option.isSome_iff_exists.mp hdial
        refine ⟨p, hp, ?_⟩
        simpa [pidTrue, hs, hd, Choice.announces, hpayload, hp] using guard
  obtain ⟨p, hp, hpid⟩ := hold
  obtain ⟨p', hp', hb⟩ := he.process_stays hp
  exact ⟨p', hp', hpid.trans hb.pid.symm⟩

theorem step_none (inv : StartInv t c) (hf : proxy.fire c me i = some c')
    {call' : StartInstanceCall} (ht : c'.task t = .startInstance call')
    (hstage : call'.stage = .outside ∨ call'.stage = .before) {child : Nat} {p' : Process}
    (hp' : c'.shared.process.lookup child = some p') : p'.owner ≠ t := by
  rcases fire_starter hf ht with ⟨htm, hcall⟩ | ⟨rfl, call, hcall, hs⟩
  · rcases (fire_spawn hf).1.process_cases hp' with ⟨p, hp, hb⟩ | ⟨id, pid, -, -, -, rfl⟩
    · rw [hb.owner]
      exact inv.none call' hcall hstage child p hp
    · exact fun h => htm h.symm
  · rcases StartInstanceCall.step_stage hs with ⟨hsame, hprocess, -, -⟩ | ⟨hout, -, -, hhost, -⟩ |
      ⟨k, pid, -, hafter, -, -⟩ | ⟨hclosed, -, -⟩ | ⟨pid, snap, -, -, -, rfl⟩
    · rw [hprocess] at hp'
      rw [hsame] at hstage
      exact inv.none call hcall hstage child p' hp'
    · rw [hhost] at hp'
      exact inv.none call hcall (Or.inl hout) child p' hp'
    · rw [hafter] at hstage
      rcases hstage with h | h <;> cases h
    · rw [hclosed] at hstage
      rcases hstage with h | h <;> cases h
    · rcases hstage with h | h <;> cases h

theorem step_own (inv : StartInv t c) (hf : proxy.fire c me i = some c') {pid : UInt32}
    {call' : StartInstanceCall} (ht : c'.task t = .startInstance call')
    (hstage : call'.stage = .after pid) {child : Nat} {p' : Process}
    (hp' : c'.shared.process.lookup child = some p') (howner : p'.owner = t) : p'.pid = pid := by
  rcases fire_starter hf ht with ⟨htm, hcall⟩ | ⟨rfl, call, hcall, hs⟩
  · rcases (fire_spawn hf).1.process_cases hp' with ⟨p, hp, hb⟩ | ⟨id, pid', -, -, -, rfl⟩
    · rw [hb.pid]
      exact inv.own call' pid hcall hstage child p hp (hb.owner.symm.trans howner)
    · exact absurd howner.symm htm
  · rcases StartInstanceCall.step_stage hs with ⟨hsame, hprocess, -, -⟩ | ⟨-, hbefore, -, -, -⟩ |
      ⟨k, pid', hbefore, hafter, hprocess, -⟩ | ⟨hclosed, -, -⟩ | ⟨pid', snap, -, -, -, rfl⟩
    · rw [hprocess] at hp'
      rw [hsame] at hstage
      exact inv.own call pid hcall hstage child p' hp' howner
    · rw [hbefore] at hstage
      cases hstage
    · rw [hafter] at hstage
      cases hstage
      rw [hprocess, HashMap.lookup_insert_ite] at hp'
      split at hp'
      · cases hp'
        rfl
      · exact absurd howner (inv.none call hcall (Or.inr hbefore) child p' hp')
    · rw [hclosed] at hstage
      cases hstage
    · cases hstage

theorem step_flag (inv : StartInv t c) (hf : proxy.fire c me i = some c')
    {call' : StartInstanceCall} (ht : c'.task t = .startInstance call') :
    call'.connectedAtSpawn = false := by
  rcases fire_starter hf ht with ⟨-, hcall⟩ | ⟨rfl, call, hcall, hs⟩
  · exact inv.flag call' hcall
  · have hold := inv.flag call hcall
    rcases StartInstanceCall.step_stage hs with ⟨-, -, hflag, -⟩ | ⟨-, -, hflag, -, -⟩ |
      ⟨k, pid, hbefore, -, -, hflag⟩ | ⟨-, hflag | ⟨hbefore, hflag⟩, -⟩ | ⟨pid, snap, -, -, -, rfl⟩
    · exact hflag.trans hold
    · exact hflag.trans hold
    · exact hflag.trans (inv.free hcall hbefore)
    · exact hflag.trans hold
    · exact hflag.trans (inv.free hcall hbefore)
    · exact hold

/-- Only the child of a waiting call appears under its id. -/
theorem step_window (inv : StartInv t c) (guard : undisturbed t c me = true)
    (hf : proxy.fire c me i = some c') {t' : Nat} {call' : StartInstanceCall} {s' : Session} {inst' : Instance}
    (ht : c'.task t = .startInstance call') (hopen : call'.stage.Open)
    (hl : c'.shared.instances.inner.lookup call'.args.instanceId = some inst')
    (hs' : handlers c' t' = some s') (htok : s'.HasToken) (htoken : s'.token = inst'.token) :
    s'.spawnedBy c'.shared t = true := by
  obtain ⟨he, -⟩ := fire_spawn hf
  rcases fire_starter hf ht with ⟨htm, hcall⟩ | ⟨rfl, call, hcall, hs⟩
  · obtain ⟨s, hs, hsame⟩ := fire_handler hf hs'
    rcases fire_inserted hf hl with ⟨inst, hinst, heq⟩ | ⟨s₀, hs₀, hpc, hkey, heq⟩
    · have old : s.HasToken ∧ s.token = inst.token ∧ s'.dialler = s.dialler := by
        rcases hsame with rfl | ⟨-, hid⟩
        · exact ⟨htok, htoken.trans heq, rfl⟩
        · rcases hid.token htok with ⟨hold, htk⟩ | hnext
          · exact ⟨hold, htk.symm.trans (htoken.trans heq), hid.dialler⟩
          · -- a token that has just been handed out is in no entry
            obtain ⟨t₁, s₁, hs₁, ho⟩ := inv.sessions.owner _ inst hinst
            have hlt := inv.sessions.fresh t₁ s₁ hs₁ ho.entered.hasToken
            have : inst.token = c.shared.instances.nextToken := by rw [← heq, ← htoken, hnext]
            have := ho.token
            omega
      obtain ⟨hold, htk, hd⟩ := old
      exact spawnedBy_stays he hd (inv.window call' hcall hopen t' s inst hinst hs hold htk)
    · have hby := of_decide_eq_true guard s₀ hs₀ hpc call' (Task.starter_eq_some.mpr hcall) hopen
        hkey.symm
      have htok₀ : s₀.HasToken := by rw [Session.HasToken, hpc]; trivial
      rcases hsame with rfl | ⟨rfl, hid⟩
      · obtain rfl := inv.sessions.distinct t' me s' s₀ hs hs₀ htok htok₀ (htoken.trans heq)
        obtain rfl := Option.some.inj (hs₀.symm.trans hs)
        exact spawnedBy_stays he rfl hby
      · obtain rfl := Option.some.inj (hs₀.symm.trans hs)
        exact spawnedBy_stays he hid.dialler hby
  · obtain ⟨supervisor, process, hhost⟩ := StartInstanceCall.step_footprint hs
    have hinst : c.shared.instances.inner.lookup call.args.instanceId = some inst' := by
      rw [hhost, StartInstanceCall.step_args hs] at hl
      exact hl
    obtain ⟨s, hs₀, hsame⟩ := fire_handler hf hs'
    have hopen' : call.stage.Open := by
      rcases StartInstanceCall.step_stage hs with ⟨hstage, -, -, -⟩ | ⟨-, -, -, -, hfree⟩ |
        ⟨k, pid, hbefore, -, -, -⟩ | ⟨hclosed, -, -⟩ | ⟨pid, snap, -, -, -, rfl⟩
      · rwa [hstage] at hopen
      · rw [StartInstanceCall.connected, InstanceMap.get, hinst] at hfree
        cases hfree
      · rw [hbefore]
        trivial
      · rw [hclosed] at hopen
        exact hopen.elim
      · exact hopen.elim
    rcases hsame with rfl | ⟨rfl, -⟩
    · exact spawnedBy_stays he rfl (inv.window call hcall hopen' t' s' inst' hinst hs₀ htok htoken)
    · rw [Task.handler_eq_some.mp hs₀] at hcall
      cases hcall

theorem step_reported (inv : StartInv t c) (hf : proxy.fire c me i = some c')
    {call' : StartInstanceCall} {reply : StartReply} (ht : c'.task t = .startInstance call')
    (hr : call'.Returned reply) :
    ∃ t' s child p, handlers c' t' = some s ∧ Reported c' t call' reply s child p := by
  have hold : ∃ t' s child p, handlers c t' = some s ∧ Reported c t call' reply s child p := by
    rcases fire_starter hf ht with ⟨-, hcall⟩ | ⟨rfl, call, hcall, hs⟩
    · exact inv.reported call' reply hcall hr
    · rcases StartInstanceCall.step_stage hs with ⟨-, -, -, hfailed⟩ | ⟨-, hbefore, -, -, -⟩ |
        ⟨k, pid, -, hafter, -, -⟩ | ⟨-, -, hfailed⟩ | ⟨pid, snap, hstage, -, hget, rfl⟩
      · exact absurd hr (hfailed reply)
      · rw [hr.closed] at hbefore
        cases hbefore
      · rw [hr.closed] at hafter
        cases hafter
      · exact absurd hr (hfailed reply)
      · cases hr
        exact inv.report hcall hstage hget
  obtain ⟨t', s, child, p, hs, hrep⟩ := hold
  obtain ⟨p', hp', hb⟩ := (fire_spawn hf).1.process_stays hrep.process
  have keep : ∀ s', s'.Entered → s'.token = s.token → s'.register = s.register →
      s'.dialler = s.dialler → Reported c' t call' reply s' child p' := by
    intro s' he htk hreg hd
    refine ⟨he, ?_, hrep.register.trans hreg.symm, hd.trans hrep.dialler, hp',
      hb.owner.trans hrep.owner, hrep.pid.trans hb.pid.symm, ?_⟩
    · rw [htk]
      exact hrep.session
    · rw [hreg]
      exact hrep.registered.trans hb.pid.symm
  rcases fire_identity hf t' with hh | ⟨s₀, s', -, hs₀, hs', hid⟩
  · exact ⟨t', s, child, p', hh.trans hs, keep s hrep.entered rfl rfl rfl⟩
  · obtain rfl := Option.some.inj (hs.symm.trans hs₀)
    obtain ⟨he, htk, hreg⟩ := hid.entered hrep.entered
    exact ⟨t', s', child, p', hs', keep s' he htk hreg hid.dialler⟩

theorem step (inv : StartInv t c) (guard : OwnRegister t c me i)
    (hf : proxy.fire c me i = some c') : StartInv t c' where
  pid _ _ _ ht hr hd := inv.step_pid guard.1 hf ht hr hd
  none _ ht hstage _ _ hp := inv.step_none hf ht hstage hp
  own _ _ ht hstage _ _ hp howner := inv.step_own hf ht hstage hp howner
  window _ ht hopen _ _ _ hl hs htok htoken := inv.step_window guard.2 hf ht hopen hl hs htok htoken
  flag _ ht := inv.step_flag hf ht
  reported _ _ ht hr := inv.step_reported hf ht hr
  sessions := inv.sessions.fire hf

theorem of_boot (h : Boot c) : StartInv t c := by
  have hfirst : ∀ t s, handlers c t = some s → ¬ s.Registered := by
    intro t s ht hr
    have hf := h.fresh t
    rw [Task.handler_eq_some.mp ht] at hf
    have hpc : s.pc = .first := congrArg Session.pc hf
    rcases hr with hr | hr
    · rwa [Session.HasToken, hpc] at hr
    · rw [hpc] at hr
      cases hr
  have hcall : ∀ call, c.task t = .startInstance call → call = { args := call.args } := by
    intro call ht
    have hf := h.fresh t
    rwa [ht] at hf
  have houtside : ∀ call, c.task t = .startInstance call → call.stage = .outside := by
    intro call ht
    rw [hcall call ht]
    rfl
  refine ⟨⟨?_, ?_, ?_, ?_, ?_, ?_⟩, .of_boot h⟩
  · exact fun t s child ht hr => absurd hr (hfirst t s ht)
  · intro call ht _ child p hp
    rw [h.lookup_process child] at hp
    cases hp
  · intro call pid ht hstage
    rw [houtside call ht] at hstage
    cases hstage
  · intro call ht hopen
    rw [houtside call ht] at hopen
    exact hopen.elim
  · intro call ht
    rw [hcall call ht]
  · intro call reply ht hr
    have hclosed := hr.closed
    rw [houtside call ht] at hclosed
    cases hclosed

end StartInv

end

/-! ## The result -/

/-- If the call of task `t` returned a reply, it reports the child it has spawned, and the
id was free when it was spawned. -/
def StartReports (t : Nat) (c : Config Host Task) : Prop :=
  ∀ call reply, c.task t = .startInstance call → call.Returned reply →
    call.connectedAtSpawn = false ∧ reply.pid = reply.register.pid ∧
      ∃ t' s child p, c.task t' = .session s ∧ Reported c t call reply s child p

/-- **A call reports its child.** Along every run in which the registers of children are
true and, while the call waits, only its child is inserted under its id. -/
theorem startReports_of_ownRegister {c₀ c : Config Host Task} {t : Nat} (boot : Boot c₀)
    (run : proxy.Reach (OwnRegister t) c₀ c) : StartReports t c := by
  have inv : StartInv t c :=
    run.invariant (.of_boot boot) fun _ _ _ _ inv guard hf => inv.step guard hf
  intro call reply ht hr
  obtain ⟨t', s, child, p, hs, hrep⟩ := inv.reported call reply ht hr
  refine ⟨inv.flag call ht, ?_, t', s, child, p, Task.handler_eq_some.mp hs, hrep⟩
  rw [hrep.register]
  exact hrep.pid.trans hrep.registered.symm

/-! ## Runs -/

/-- Two `start_instance` calls for `a`, and a stream. -/
def startsAndDial (dialler : Dialler) : Config Host Task :=
  bootWith { binary := some "sim" }
    [.startInstance { args := { instanceId := "a" } }, .session { dialler := dialler },
      .startInstance { args := { instanceId := "a" } }]

theorem boot_startsAndDial (dialler : Dialler) : Boot (startsAndDial dialler) :=
  boot_bootWith (by simp [Task.Fresh])

/-- The first call spawns its child with pid `1`, and the second one finds `a` free; the
stream registers `a` with `pid` and is inserted. The first call returns, and the second one is
refused. -/
def dialRun (pid : UInt32) : List (Nat × Choice) :=
  startInstanceRun 0 0 ++
    [(2, .run), (2, .run), (2, .run),
      (1, .item (envelope (.register { instanceId := "a", pid := pid }))), (1, .run), (1, .run),
      (0, .run), (2, .run)]

/-- What the first call answers then. -/
def dialReply (pid : UInt32) : StartReply where
  instanceId := "a"
  pid := 1
  register := { instanceId := "a", pid := pid }
  lastHeartbeat := none
  sampleBook := true
  autoSleep := false

/-- The child of the call dials in. -/
theorem startReports_child :
    ∃ c, proxy.Reach (OwnRegister 0) (startsAndDial (.child 0)) c ∧
      (c.task 0).starter.map StartInstanceCall.pc = some (.returned (.ok (dialReply 1))) ∧
      (c.task 2).starter.map StartInstanceCall.stage = some .closed ∧ StartReports 0 c := by
  obtain ⟨c, run, hpc, hclosed⟩ := proxy.exists_reach (OwnRegister 0)
    (startsAndDial (.child 0)) (dialRun 1)
    (fun c => (c.task 0).starter.map StartInstanceCall.pc = some (.returned (.ok (dialReply 1))) ∧
      (c.task 2).starter.map StartInstanceCall.stage = some .closed)
    (by decide +kernel)
  exact ⟨c, run, hpc, hclosed, startReports_of_ownRegister (boot_startsAndDial _) run⟩

/-- A simulator that somebody else has started dials in with the same id and its own
pid `2`, and the call reports it as its child with pid `1`. -/
theorem not_startReports_stranger :
    ¬ ∀ t c₀ c, Boot c₀ → proxy.Reach PidsTrue c₀ c → StartReports t c := by
  intro hall
  obtain ⟨c, run, hpc⟩ := proxy.exists_reach PidsTrue (startsAndDial .external) (dialRun 2)
    (fun c => (c.task 0).starter.map StartInstanceCall.pc = some (.returned (.ok (dialReply 2))))
    (by decide +kernel)
  obtain ⟨call, hcall, hret⟩ := Option.map_eq_some_iff.mp hpc
  obtain ⟨-, hpid, -⟩ := hall 0 _ c (boot_startsAndDial _) run call (dialReply 2)
    (Task.starter_eq_some.mp hcall) hret
  exact absurd hpid (by decide)

end CsmProxy
