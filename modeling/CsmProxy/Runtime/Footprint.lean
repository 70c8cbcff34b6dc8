import CsmProxy.Observe.Sections
import CsmProxy.Runtime.Proxy
import CsmProxy.Sessions.Sections
import CsmProxy.Waiters.Sections

/-!
# Footprints

Which fields of the host a section of each task can change. Everything else is left
alone by definition of the equation.
-/

namespace CsmProxy

theorem PushPc.step_footprint (id : String) (msg : SimToServer) (h : Host) (pc : PushPc) :
    ∃ m o, (pc.step id msg h).1 = { h with instances := m, oneshot := o } := by
  cases pc <;> exact ⟨_, _, rfl⟩

theorem Host.dropSender_footprint (h : Host) (tx : Option Nat) :
    ∃ o, h.dropSender tx = { h with oneshot := o } := by
  cases tx <;> exact ⟨_, rfl⟩

theorem RemovePc.step_footprint {id : String} {token : Nat} {h h' : Host} {pc : RemovePc}
    {i : Choice} {out : Option RemovePc} (hs : pc.step id token h i = some (h', out)) :
    ∃ m o, h' = { h with instances := m, oneshot := o } := by
  cases step_section hs with
  | @take corr rest =>
    obtain ⟨o, ho⟩ := Host.dropSender_footprint
      { h with instances := (h.instances.removeWaiter corr).2 } (h.instances.removeWaiter corr).1
    exact ⟨_, o, ho⟩
  | _ => exact ⟨_, _, rfl⟩

theorem Session.step_footprint {h h' : Host} {s s' : Session} {i : Choice}
    (hs : s.step h i = some (h', s')) : ∃ m o, h' = { h with instances := m, oneshot := o } := by
  cases step_section hs with
  | @push msg sub h' out hpc hp =>
    have hfoot := PushPc.step_footprint s.register.instanceId msg h sub
    rwa [hp] at hfoot
  | removeGoodbye hpc hp | remove hpc hp => exact RemovePc.step_footprint hp
  | _ => exact ⟨_, _, rfl⟩

theorem SendCall.step_footprint {me : Nat} {h h' : Host} {c c' : SendCall} {i : Choice}
    (hs : c.step me h i = some (h', c')) : ∃ m o, h' = { h with instances := m, oneshot := o } := by
  cases step_section hs with
  | insertWaiter hpc =>
    obtain ⟨o, ho⟩ := Host.dropSender_footprint
      { h with instances := (h.instances.insertWaiter c.msg.corr c.kind me).2 }
      (h.instances.insertWaiter c.msg.corr c.kind me).1
    exact ⟨_, o, ho⟩
  | take hpc =>
    obtain ⟨o, ho⟩ := Host.dropSender_footprint
      { h with instances := (h.instances.removeWaiter c.msg.corr).2 }
      (h.instances.removeWaiter c.msg.corr).1
    exact ⟨_, o, ho⟩
  | _ => exact ⟨_, _, rfl⟩

theorem ObserveCall.step_footprint {me : Nat} {h h' : Host} {c c' : ObserveCall} {i : Choice}
    (hs : c.step me h i = some (h', c')) : ∃ m p, h' = { h with instances := m, pops := p } := by
  cases step_cases hs <;> exact ⟨_, _, rfl⟩

theorem EnqueuePc.step_footprint (ack : Bool) (payload : ServerPayload) (h : Host) (pc : EnqueuePc) :
    ∃ m, (pc.step ack payload h).1 = { h with instances := m } := by
  cases pc with
  | nextCorr id => exact ⟨_, rfl⟩
  | _ => simp only [step]; split <;> exact ⟨_, rfl⟩

theorem ViewCall.step_footprint {h h' : Host} {c c' : ViewCall} {i : Choice}
    (hs : c.step h i = some (h', c')) : ∃ m, h' = { h with instances := m } := by
  obtain ⟨paths, exclude, pc⟩ := c
  cases i with
  | run =>
    cases pc with
    | enqueue id pc =>
      have hk := EnqueuePc.step_footprint false
        (.setSessionView (wireSessionViewPaths paths) exclude) h pc
      simp only [step] at hs
      split at hs <;> (rename_i he; rw [he] at hk; cases hs; exact hk)
    | default | resolve id =>
      simp only [step] at hs
      split at hs <;> (cases hs; exact ⟨_, rfl⟩)
    | setReadMask id corr | setExclude id corr => cases hs; exact ⟨_, rfl⟩
    | returned result => cases hs
  | _ => cases pc <;> cases hs

theorem EnqueueCall.step_footprint {h h' : Host} {c c' : EnqueueCall} {i : Choice}
    (hs : c.step h i = some (h', c')) : ∃ m, h' = { h with instances := m } := by
  obtain ⟨ack, payload, pc, result⟩ := c
  cases i with
  | run =>
    cases result with
    | none =>
      have hk := EnqueuePc.step_footprint ack payload h pc
      simp only [step] at hs
      split at hs <;> (rename_i he; rw [he] at hk; cases hs; exact hk)
    | some result => cases hs
  | _ => cases result <;> cases hs

theorem StartPc.step_footprint {args : StartArgs} {me : Nat} {h h' : Host} {pc : StartPc}
    {i : Choice} {out : StartPc ⊕ Except SpawnError UInt32}
    (hs : pc.step args me h i = some (h', out)) :
    ∃ s p, h' = { h with supervisor := s, process := p } := by
  cases pc <;> cases i <;> simp only [step] at hs
  all_goals (try split at hs) <;> cases hs <;> exact ⟨_, _, rfl⟩

theorem ReapPc.step_footprint {id : String} {me : Nat} {h h' : Host} {pc : ReapPc} {i : Choice}
    {out : Option ReapPc} (hs : pc.step id me h i = some (h', out)) :
    ∃ s p, h' = { h with supervisor := s, process := p } := by
  cases pc <;> cases i <;> simp only [step] at hs
  all_goals (try split at hs) <;> cases hs <;> exact ⟨_, _, rfl⟩

theorem SupervisorCall.step_footprint {me : Nat} {h h' : Host} {c c' : SupervisorCall} {i : Choice}
    (hs : c.step me h i = some (h', c')) : ∃ s p, h' = { h with supervisor := s, process := p } := by
  cases c with
  | start args pc =>
    obtain ⟨⟨g, out⟩, hp, he⟩ := Option.map_eq_some_iff.mp hs
    cases he
    exact StartPc.step_footprint hp
  | reap id pc =>
    obtain ⟨⟨g, out⟩, hp, he⟩ := Option.map_eq_some_iff.mp hs
    cases he
    exact ReapPc.step_footprint hp
  | reapAll pc =>
    obtain ⟨⟨g, out⟩, hp, he⟩ := Option.map_eq_some_iff.mp hs
    cases he
    cases pc with
    | reap id pc rest =>
      obtain ⟨⟨g', out'⟩, hp', he'⟩ := Option.map_eq_some_iff.mp hp
      cases he'
      exact ReapPc.step_footprint hp'
    | next rest =>
      cases i <;> simp only [reapAllStep] at hp
      all_goals (try split at hp) <;> cases hp <;> exact ⟨_, _, rfl⟩
    | _ => cases i <;> cases hp <;> exact ⟨_, _, rfl⟩
  | isAlive id => cases i <;> cases hs; exact ⟨_, _, rfl⟩
  | _ => cases hs

theorem StartInstanceCall.step_footprint {me : Nat} {h h' : Host} {c c' : StartInstanceCall}
    {i : Choice} (hs : c.step me h i = some (h', c')) :
    ∃ s p, h' = { h with supervisor := s, process := p } := by
  obtain ⟨args, pc, connectedAtSpawn, session⟩ := c
  cases pc with
  | start pc =>
    obtain ⟨⟨g, out⟩, hp, he⟩ := Option.map_eq_some_iff.mp hs
    cases he
    exact StartPc.step_footprint hp
  | reap err pc =>
    obtain ⟨⟨g, out⟩, hp, he⟩ := Option.map_eq_some_iff.mp hs
    cases he
    exact ReapPc.step_footprint hp
  | poll pid deadline | sleep pid deadline wake =>
    cases i <;> simp only [step] at hs
    all_goals (try split at hs) <;> cases hs <;> exact ⟨_, _, rfl⟩
  | _ => cases i <;> cases hs <;> exact ⟨_, _, rfl⟩

theorem ShutdownCall.step_footprint {me : Nat} {h h' : Host} {c c' : ShutdownCall} {i : Choice}
    (hs : c.step me h i = some (h', c')) :
    ∃ m s p, h' = { h with instances := m, supervisor := s, process := p } := by
  obtain ⟨instanceId, pc⟩ := c
  cases pc with
  | enqueue pc =>
    obtain ⟨m, hm⟩ := EnqueuePc.step_footprint false .shutdown h pc
    cases i <;> simp only [step] at hs
    case run => split at hs <;> (rename_i he; rw [he] at hm; cases hs; exact ⟨m, _, _, hm⟩)
    all_goals cases hs
  | choose queued =>
    cases i <;> simp only [step] at hs
    case run => split at hs <;> (cases hs; exact ⟨_, _, _, rfl⟩)
    all_goals cases hs
  | reap queued id pc =>
    obtain ⟨⟨g, out⟩, hp, he⟩ := Option.map_eq_some_iff.mp hs
    cases he
    obtain ⟨s, p, hsp⟩ := ReapPc.step_footprint hp
    exact ⟨_, s, p, hsp⟩
  | returned queued => cases i <;> cases hs

theorem environmentStep_footprint {h h' : Host} {i : Choice} (hs : environmentStep h i = some h') :
    ∃ m p n, h' = { h with instances := m, process := p, now := n } := by
  cases i <;> cases hs <;> exact ⟨_, _, _, rfl⟩

/-- Only observe calls take envelopes. -/
theorem Task.step_pops {me : Nat} {h h' : Host} {t t' : Task} {i : Choice}
    (hs : t.step me h i = some (h', t')) (ht : ∀ c, t ≠ .observe c) :
    h'.pops = h.pops ∧ ∀ c, t' ≠ .observe c := by
  cases t with
  | observe c => exact absurd rfl (ht c)
  | environment =>
    obtain ⟨g, hp, he⟩ := Option.map_eq_some_iff.mp hs
    cases he
    obtain ⟨m, p, n, rfl⟩ := environmentStep_footprint hp
    exact ⟨rfl, fun c => by simp⟩
  | _ =>
    obtain ⟨⟨g, c'⟩, hp, he⟩ := Option.map_eq_some_iff.mp hs
    cases he
    refine ⟨?_, fun c => by simp⟩
    first
      | obtain ⟨m, o, rfl⟩ := Session.step_footprint hp; rfl
      | obtain ⟨m, o, rfl⟩ := SendCall.step_footprint hp; rfl
      | obtain ⟨m, rfl⟩ := ViewCall.step_footprint hp; rfl
      | obtain ⟨m, rfl⟩ := EnqueueCall.step_footprint hp; rfl
      | obtain ⟨s, p, rfl⟩ := SupervisorCall.step_footprint hp; rfl
      | obtain ⟨s, p, rfl⟩ := StartInstanceCall.step_footprint hp; rfl
      | obtain ⟨m, s, p, rfl⟩ := ShutdownCall.step_footprint hp; rfl

end CsmProxy
