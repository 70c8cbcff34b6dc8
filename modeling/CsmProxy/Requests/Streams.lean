import CsmProxy.Requests.FreshCorrs

/-!
# What the streams send

A simulator echoes the corr of the request it answers, or sends the corr `0`. `Echoes` is a
run in which every simulator does: what is read on a stream has a corr for which a request
was queued on that stream before (`Heard`).
-/

namespace CsmProxy

open Foundations

/-! ## The streams of the server -/

/-- What holds of the streams of the proxy holds where the server is. -/
theorem server_sessions {c₀ c : Config Host ServerTask} (boot : ServerBoot c₀)
    (run : server.Reach Pool.anyStep c₀ c) :
    ∃ d, SessionsInv c.shared.instances (handlers d) ∧ Embedded c d := by
  obtain ⟨d₀, d, sim⟩ := Simulates.of_reach boot run
  have inv := SessionsInv.of_reach sim.boot sim.reach
  rw [sim.embedded.shared] at inv
  exact ⟨d, inv, sim.embedded⟩

/-- What the server knows of its streams, as the proxy does. -/
structure StreamsKnown (c : Config Host ServerTask) : Prop where
  locals : ∀ p s, (c.task p).stage = .task (.session s) → s.Local
  fresh : ∀ p s, (c.task p).stage = .task (.session s) → s.HasToken →
    s.token < c.shared.instances.nextToken
  entry_fresh : ∀ id inst, c.shared.instances.inner.lookup id = some inst →
    inst.token < c.shared.instances.nextToken
  owns : ∀ p s id inst, (c.task p).stage = .task (.session s) → s.HasToken →
    c.shared.instances.inner.lookup id = some inst → inst.token = s.token → s.Owns id inst

theorem streams_known {c₀ c : Config Host ServerTask} (boot : ServerBoot c₀)
    (run : server.Reach Pool.anyStep c₀ c) : StreamsKnown c := by
  obtain ⟨d, inv, he⟩ := server_sessions boot run
  have hhandler : ∀ p s, (c.task p).stage = .task (.session s) → handlers d (own p) = some s := by
    intro p s hs
    exact Task.handler_eq_some.mpr (he.task p _ hs)
  refine ⟨fun p s hs => inv.locals _ s (hhandler p s hs),
    fun p s hs => inv.fresh _ s (hhandler p s hs), ?_, ?_⟩
  · intro id inst hid
    obtain ⟨t, s, hs, howns⟩ := inv.owner id inst hid
    rw [howns.token]
    exact inv.fresh t s hs howns.entered.hasToken
  · intro p s id inst hs htoken hid
    exact inv.owns_of_token (hhandler p s hs) htoken hid

/-- Every entry is stored under the id of its registration, which is a valid one. -/
theorem server_entry {c₀ c : Config Host ServerTask} (boot : ServerBoot c₀)
    (run : server.Reach Pool.anyStep c₀ c) {id : String} {inst : Instance}
    (hid : c.shared.instances.inner.lookup id = some inst) :
    inst.register.instanceId = id ∧ isValidInstanceId id = true := by
  obtain ⟨d, inv, -⟩ := server_sessions boot run
  obtain ⟨t, s, hs, howns⟩ := inv.owner id inst hid
  refine ⟨(congrArg Register.instanceId howns.register).trans howns.key, ?_⟩
  rw [← howns.key]
  exact (inv.locals t s hs).valid (.inl howns.entered.hasToken)

/-- What a stream has once it has a token, it keeps. -/
structure Session.Keeps (s s' : Session) : Prop where
  hasToken : s'.HasToken
  token : s'.token = s.token
  register : s'.register = s.register
  received : s.received <+: s'.received

/-- A stream gets its token before it reads, and keeps it. -/
theorem Session.step_keeps {h h' : Host} {s s' : Session} {i : Choice}
    (hs : s.step h i = some (h', s')) :
    (s.HasToken ∧ s.Keeps s') ∨
      (¬ s.HasToken ∧ s'.received = s.received ∧
        (s'.HasToken → s'.token = h.instances.nextToken)) := by
  obtain ⟨dialler, register, token, received, pc⟩ := s
  cases step_section hs with
  | @accept item hpc hdial =>
    obtain rfl : pc = .first := hpc
    refine .inr ⟨fun h => h, ?_⟩
    cases item with
    | message msg =>
      simp only [Session.accept]
      repeat' split
      all_goals exact ⟨rfl, fun h => h.elim⟩
    | error err => exact ⟨rfl, fun h => h.elim⟩
    | closed => exact ⟨rfl, fun h => h.elim⟩
  | allocToken hpc =>
    obtain rfl : pc = .allocToken := hpc
    exact .inr ⟨fun h => h, rfl, fun _ => rfl⟩
  | insert hpc | closed hpc | failed hpc | replaced hpc | heartbeat hpc | leave hpc =>
    obtain rfl : pc = _ := hpc
    exact .inl ⟨trivial, trivial, rfl, rfl, List.prefix_refl _⟩
  | read hpc =>
    obtain rfl : pc = .next := hpc
    exact .inl ⟨trivial, trivial, rfl, rfl, List.prefix_append _ _⟩
  | @owned item hpc =>
    obtain rfl : pc = .owns item := hpc
    refine .inl ⟨trivial, ?_, rfl, rfl, List.prefix_refl _⟩
    unfold dispatch
    repeat' split
    all_goals trivial
  | @push msg sub _ out hpc =>
    obtain rfl : pc = .push msg sub := hpc
    refine .inl ⟨trivial, ?_, rfl, rfl, List.prefix_refl _⟩
    cases out with
    | none =>
      simp only [Option.elim_none, afterPush]
      split <;> trivial
    | some sub' => trivial
  | @removeGoodbye sub _ _ out hpc | @remove sub _ _ out hpc =>
    obtain rfl : pc = _ := hpc
    refine .inl ⟨trivial, ?_, rfl, rfl, List.prefix_refl _⟩
    cases out <;> trivial

theorem RequestPc.step_serves {tx : Nat} {h h' : Host} {i : Choice} {r : ToolRequest}
    {pc : RequestPc} {out : RequestPc ⊕ Except String ToolReply}
    (hs : pc.step tx r h i = some (h', out)) : h.instances.Serves h'.instances := by
  cases pc with
  | enqueue q =>
    cases i <;> simp only [step] at hs
    case run =>
      obtain ⟨rfl, -⟩ := Prod.mk.inj (Option.some.inj hs)
      exact EnqueuePc.step_serves ..
    all_goals cases hs
  | wait w pc =>
    obtain ⟨⟨g, res⟩, hpc, he⟩ := Option.map_eq_some_iff.mp hs
    cases he
    cases WaitPc.step_section hpc with
    | drawn => exact .of_inner rfl rfl
    | send step => exact SendCall.step_serves step
    | _ => exact .refl _

/-- A task that is no stream's handler leaves the sessions alone. -/
theorem Stage.Section.keeps {me : Nat} {h h' : Host} {i : Choice} {s s' : Stage}
    (hs : Stage.Section me h i h' s s') (hsession : ∀ sn, s ≠ .task (.session sn)) :
    h.instances.Keeps h'.instances := by
  cases hs with
  | task _ step => exact (Task.step_keeps step fun sn he => hsession sn (he ▸ rfl)).1
  | resolving | refused | begins => exact (InstanceMap.Serves.refl _).keeps
  | advances step | follows step | returns step => exact (RequestPc.step_serves step).keeps

theorem Session.step_nextToken {h h' : Host} {s s' : Session} {i : Choice}
    (hs : s.step h i = some (h', s')) : h.instances.nextToken ≤ h'.instances.nextToken := by
  rcases step_cases hs with ⟨-, ht, -⟩ | ⟨msg, -, hmap, -⟩ | ⟨msg, -, hmap, -⟩ | ⟨-, hmap, -⟩ |
    ⟨-, hmap, -⟩ | ⟨hb, msg, -, hmap, -⟩ | ⟨-, hmap, -⟩
  · exact ht.ge
  · exact (congrArg (fun h : Host => h.instances.nextToken) hmap).ge
  · exact (congrArg InstanceMap.nextToken hmap).ge
  · rw [hmap]
    exact Nat.le_succ _
  · exact (congrArg InstanceMap.nextToken hmap).ge
  · exact (congrArg InstanceMap.nextToken hmap).ge
  · rw [hmap]
    unfold InstanceMap.removeEntry
    split <;> exact Nat.le_refl _

/-- Tokens are handed out upwards. -/
theorem Stage.Section.nextToken {me : Nat} {h h' : Host} {i : Choice} {s s' : Stage}
    (hs : Stage.Section me h i h' s s') : h.instances.nextToken ≤ h'.instances.nextToken := by
  by_cases hsession : ∃ sn, s = .task (.session sn)
  · obtain ⟨sn, rfl⟩ := hsession
    cases hs with
    | task _ step =>
      obtain ⟨sn', -, hstep⟩ := Task.step_session step
      exact Session.step_nextToken hstep
  · exact (hs.keeps fun sn he => hsession ⟨sn, he⟩).nextToken.ge

/-! ## Echoed corrs -/

/-- Was a request with the corr queued on the stream that holds the token? -/
def asked (token : Nat) (corr : UInt64) (log : List RequestEvent) : Bool :=
  log.any fun
    | .queued _ _ session msg => session = some token && msg.corr = corr
    | .registered .. => false

/-- The message read at this step, if there is one, echoes a corr or has none. -/
def echoes (c : Config (Host × List RequestEvent) ServerTask) (me : Nat) (i : Choice) : Bool :=
  match (c.task me).stage, i with
  | .task (.session s), .item (.message msg) =>
    s.pc ≠ .next || msg.corr = 0 || asked s.token msg.corr c.shared.2
  | _, _ => true

/-- The counter of corrs has not come round, and the simulators echo corrs. -/
def Echoes : Pool.Guard (Host × List RequestEvent) ServerTask Choice :=
  fun c me i => Unwrapped c me i ∧ echoes c me i = true

theorem asked_iff {token : Nat} {corr : UInt64} {log : List RequestEvent} :
    asked token corr log = true ↔
      ∃ tx id msg, .queued tx id (some token) msg ∈ log ∧ msg.corr = corr := by
  unfold asked
  rw [List.any_eq_true]
  constructor
  · rintro ⟨e, he, h⟩
    cases e with
    | registered tx corr kind => cases h
    | queued tx id session msg =>
      obtain ⟨hs, hc⟩ := (Bool.and_eq_true _ _).mp h
      obtain rfl := of_decide_eq_true hs
      exact ⟨tx, id, msg, he, of_decide_eq_true hc⟩
  · rintro ⟨tx, id, msg, he, hc⟩
    exact ⟨_, he, by simp [hc]⟩

theorem asked_mono {token : Nat} {corr : UInt64} {log log' : List RequestEvent}
    (hlog : log <:+ log') (h : asked token corr log = true) : asked token corr log' = true := by
  obtain ⟨tx, id, msg, he, hc⟩ := asked_iff.mp h
  exact asked_iff.mpr ⟨tx, id, msg, hlog.subset he, hc⟩

/-- What is read with a corr was asked for. -/
structure Heard (c : Config (Host × List RequestEvent) ServerTask) : Prop where
  silent : ∀ p s, (c.task p).stage = .task (.session s) → ¬ s.HasToken → s.received = []
  asked : ∀ p s msg, (c.task p).stage = .task (.session s) → msg ∈ s.received → msg.corr ≠ 0 →
    CsmProxy.asked s.token msg.corr c.shared.2 = true

theorem ServerTask.Fresh.session {t : ServerTask} (h : t.Fresh) {s : Session}
    (hs : t.stage = .task (.session s)) : s.pc = .first ∧ s.received = [] := by
  cases t with
  | task u =>
    cases hs
    have hfresh : s = { dialler := s.dialler } := h
    rw [hfresh]
    exact ⟨rfl, rfl⟩
  | tool c =>
    simp only [ServerTask.stage] at hs
    split at hs <;> cases hs
  | batch c =>
    simp only [ServerTask.stage] at hs
    split at hs <;> cases hs

/-- Another task's stage is what it was. -/
theorem stage_of_other {c c' : Config (Host × List RequestEvent) ServerTask} {me p : Nat}
    {st : Stage} (hother : ∀ t, t ≠ me → c'.task t = c.task t) (hp : (c'.task p).stage = st) :
    (p = me ∧ (c'.task me).stage = st) ∨ (p ≠ me ∧ (c.task p).stage = st) := by
  by_cases hpm : p = me
  · subst hpm
    exact .inl ⟨rfl, hp⟩
  · rw [hother p hpm] at hp
    exact .inr ⟨hpm, hp⟩

/-- A handler after the step was one before it. -/
theorem Stage.Section.session_before {me : Nat} {h h' : Host} {i : Choice} {s : Stage}
    {sn' : Session} (hs : Stage.Section me h i h' s (.task (.session sn'))) :
    ∃ sn, s = .task (.session sn) ∧ sn.step h i = some (h', sn') := by
  cases hs with
  | @task t _ _ noSend step =>
    cases t with
    | session sn =>
      obtain ⟨_, he, hsn⟩ := Task.step_session step
      cases he
      exact ⟨sn, rfl, hsn⟩
    | send call => exact absurd rfl (noSend call)
    | environment =>
      obtain ⟨g, hp, he⟩ := Option.map_eq_some_iff.mp step
      cases he
    | _ =>
      obtain ⟨⟨g, c'⟩, hp, he⟩ := Option.map_eq_some_iff.mp step
      cases he

namespace Heard

variable {c c' : Config (Host × List RequestEvent) ServerTask} {me : Nat} {i : Choice}

theorem of_boot {c : Config Host ServerTask} (boot : ServerBoot c) : Heard (c.withLog []) where
  silent p s hs _ := ((boot.fresh p).session hs).2
  asked p s msg hs hmsg := by
    rw [((boot.fresh p).session hs).2] at hmsg
    cases hmsg

theorem step (inv : Heard c) (guard : Echoes c me i) (hf : requestHistory.fire c me i = some c') :
    Heard c' := by
  obtain ⟨hfire, hlog⟩ := Pool.fire_recording hf
  obtain ⟨hs, hother⟩ := fire_stage hfire
  have hgrow : c.shared.2 <:+ c'.shared.2 := hlog ▸ List.suffix_append _ _
  have hmine : ∀ s', (c'.task me).stage = .task (.session s') →
      (¬ s'.HasToken → s'.received = []) ∧ ∀ msg ∈ s'.received, msg.corr ≠ 0 →
        CsmProxy.asked s'.token msg.corr c'.shared.2 = true := by
    intro s' hs'
    have hbefore : Stage.Section me c.shared.1 i c'.shared.1 (c.task me).stage
        (.task (.session s')) := hs' ▸ hs
    obtain ⟨s, hst, hstep⟩ := hbefore.session_before
    rcases Session.step_keeps hstep with ⟨htoken, hkeeps⟩ | ⟨hno, hreceived, -⟩
    · refine ⟨fun hno => absurd hkeeps.hasToken hno, fun msg hmsg hcorr => ?_⟩
      rw [hkeeps.token]
      by_cases hold : msg ∈ s.received
      · exact asked_mono hgrow (inv.asked me s msg hst hold hcorr)
      · have hsection := Session.step_section hstep
        generalize c'.shared.1 = h' at hsection
        cases hsection with
        | @read msg' hpc =>
          -- the message that was read at this step
          have hnew : msg = msg' := by
            rcases List.mem_append.mp hmsg with hold' | hnew
            · exact absurd hold' hold
            · exact List.mem_singleton.mp hnew
          subst hnew
          have hecho := guard.2
          simp only [echoes, hst, hpc, ne_eq, not_true_eq_false, decide_false, Bool.false_or,
            hcorr] at hecho
          exact asked_mono hgrow hecho
        | allocToken hpc | accept hpc =>
          rw [Session.HasToken, hpc] at htoken
          exact htoken.elim
        | _ => exact absurd hmsg hold
    · rw [hreceived, inv.silent me s hst hno]
      exact ⟨fun _ => rfl, fun _ h => by cases h⟩
  refine ⟨fun p s hp => ?_, fun p s msg hp => ?_⟩
  · rcases stage_of_other hother hp with ⟨rfl, hp⟩ | ⟨-, hp⟩
    · exact (hmine s hp).1
    · exact inv.silent p s hp
  · rcases stage_of_other hother hp with ⟨rfl, hp⟩ | ⟨-, hp⟩
    · exact (hmine s hp).2 msg
    · exact fun hmsg hcorr => asked_mono hgrow (inv.asked p s msg hp hmsg hcorr)

end Heard

end CsmProxy
