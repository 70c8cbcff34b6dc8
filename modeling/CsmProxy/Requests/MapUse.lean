import CsmProxy.Requests.Sections
import CsmProxy.Runtime.Footprint
import CsmProxy.Runtime.MapCalls
import CsmProxy.Waiters.Slot

/-!
# What a section does with the instance map

Outside of its `send_and_wait_for` calls a task leaves the map alone, or makes one section of
one call of it (`Task.step_uses`). Only the handler of a stream makes calls of several
sections: `insert`, `push_inbound` and `remove_if`.
-/

namespace CsmProxy

open Foundations

/-! ## The part of the host that the calls see -/

/-- What the calls of the map see of the host. -/
def Host.mapPart (h : Host) : Host where
  instances := h.instances
  oneshot := h.oneshot
  now := h.now

@[simp] theorem Host.mapPart_instances (h : Host) : h.mapPart.instances = h.instances := rfl

@[simp] theorem Host.mapPart_oneshot (h : Host) : h.mapPart.oneshot = h.oneshot := rfl

@[simp] theorem Host.mapPart_now (h : Host) : h.mapPart.now = h.now := rfl

theorem Host.dropSender_mapPart (h : Host) (tx : Option Nat) :
    (h.dropSender tx).mapPart = h.mapPart.dropSender tx := by
  cases tx <;> rfl

theorem PushPc.step_mapPart (id : String) (msg : SimToServer) (h : Host) (pc : PushPc) :
    pc.step id msg h.mapPart = ((pc.step id msg h).1.mapPart, (pc.step id msg h).2) := by
  cases pc <;> rfl

theorem RemovePc.step_mapPart {id : String} {token : Nat} {h h' : Host} {pc : RemovePc} {i : Choice}
    {out : Option RemovePc} (hs : pc.step id token h i = some (h', out)) :
    pc.step id token h.mapPart i = some (h'.mapPart, out) := by
  cases step_section hs with
  | entry | collect | done => rfl
  | pick mem => exact if_pos mem
  | take =>
    rw [Host.dropSender_mapPart]
    rfl

theorem SendCall.step_mapPart {tx : Nat} {h h' : Host} {c c' : SendCall} {i : Choice}
    (hs : c.step tx h i = some (h', c')) : c.step tx h.mapPart i = some (h'.mapPart, c') := by
  cases step_section hs with
  | connected pc found | unknown pc found => simp [step, pc, found]
  | insertWaiter pc | take pc =>
    rw [Host.dropSender_mapPart]
    simp only [step, pc]
    rfl
  | insertInstance pc | forget pc =>
    simp only [step, pc]
    rfl
  | queued pc sent =>
    simp only [step, pc, Host.mapPart_instances, sent]
    rfl
  | refused pc refusal same =>
    simp only [step, pc, Host.mapPart_instances, refusal]
    rcases same with ⟨rfl, rfl⟩ | ⟨rfl, rfl⟩ <;> rfl
  | answered pc sent | disconnected pc sent => simp only [step, pc, Host.mapPart_oneshot, sent]
  | timedOut pc waiting late =>
    simp only [step, pc, Host.mapPart_oneshot, waiting, Host.mapPart_now]
    exact if_pos late

theorem environmentStep_mapPart {h h' : Host} {i : Choice} (hs : environmentStep h i = some h') :
    h'.mapPart = h.mapPart ∨ environmentStep h.mapPart i = some h'.mapPart := by
  cases i <;> cases hs
  case exited child => exact .inl rfl
  all_goals exact .inr rfl

/-! ## Methods of one section -/

/-- The section is one method of the map, or leaves the map alone. -/
def Host.Updates (h h' : Host) : Prop :=
  h'.mapPart = h.mapPart ∨
    ∃ u : MapUpdate, h'.mapPart = { h.mapPart with instances := u.apply h.instances }

theorem EnqueuePc.step_updates (ackRequested : Bool) (payload : ServerPayload) (h : Host)
    (pc : EnqueuePc) : h.Updates (pc.step ackRequested payload h).1 := by
  have hsection := step_section ackRequested payload h pc
  generalize (pc.step ackRequested payload h).1 = g at hsection ⊢
  generalize (pc.step ackRequested payload h).2 = out at hsection
  cases hsection with
  | drawn => exact .inr ⟨.nextCorr, rfl⟩
  | @queued id corr instances sent =>
    refine .inr ⟨.trySend id { corr, ackRequested, payload := some payload }, ?_⟩
    rw [MapUpdate.apply, sent]
    rfl
  | _ => exact .inl rfl

theorem ObserveCall.step_updates {me : Nat} {h h' : Host} {c c' : ObserveCall} {i : Choice}
    (hs : c.step me h i = some (h', c')) : h.Updates h' := by
  cases step_cases hs with
  | pop pc recv | drained pc recv =>
    refine .inr ⟨.tryRecvInbound c.id, ?_⟩
    rw [MapUpdate.apply, recv]
    rfl
  | _ => exact .inl rfl

theorem ViewCall.step_updates {h h' : Host} {c c' : ViewCall} {i : Choice}
    (hs : c.step h i = some (h', c')) : h.Updates h' := by
  obtain ⟨paths, exclude, pc⟩ := c
  cases i with
  | run =>
    cases pc with
    | enqueue id pc =>
      have hu := EnqueuePc.step_updates false
        (.setSessionView (wireSessionViewPaths paths) exclude) h pc
      simp only [step] at hs
      split at hs <;> (rename_i he; rw [he] at hu; cases hs; exact hu)
    | default | resolve id =>
      simp only [step] at hs
      split at hs <;> (cases hs; exact .inl rfl)
    | setReadMask id corr =>
      cases hs
      exact .inr ⟨.setReadMask id paths, rfl⟩
    | setExclude id corr =>
      cases hs
      exact .inr ⟨.setExcludeLogComponents id exclude, rfl⟩
    | returned result => cases hs
  | _ => cases pc <;> cases hs

theorem EnqueueCall.step_updates {h h' : Host} {c c' : EnqueueCall} {i : Choice}
    (hs : c.step h i = some (h', c')) : h.Updates h' := by
  obtain ⟨ackRequested, payload, pc, result⟩ := c
  cases i with
  | run =>
    cases result with
    | none =>
      have hu := EnqueuePc.step_updates ackRequested payload h pc
      simp only [step] at hs
      split at hs <;> (rename_i he; rw [he] at hu; cases hs; exact hu)
    | some result => cases hs
  | _ => cases result <;> cases hs

theorem ShutdownCall.step_updates {me : Nat} {h h' : Host} {c c' : ShutdownCall} {i : Choice}
    (hs : c.step me h i = some (h', c')) : h.Updates h' := by
  obtain ⟨instanceId, pc⟩ := c
  cases pc with
  | enqueue pc =>
    have hu := EnqueuePc.step_updates false .shutdown h pc
    cases i <;> simp only [step] at hs
    case run => split at hs <;> (rename_i he; rw [he] at hu; cases hs; exact hu)
    all_goals cases hs
  | choose queued =>
    cases i <;> simp only [step] at hs
    case run => split at hs <;> (cases hs; exact .inl rfl)
    all_goals cases hs
  | reap queued id pc =>
    obtain ⟨⟨g, out⟩, hp, he⟩ := Option.map_eq_some_iff.mp hs
    cases he
    obtain ⟨s, p, rfl⟩ := ReapPc.step_footprint hp
    exact .inl rfl
  | returned queued => cases i <;> cases hs

/-! ## The call that a task is in -/

/-- The call of the map that the handler of a stream is in. A call that is about to begin is
not counted. -/
def Session.inCall (s : Session) : Option MapCall :=
  match s.pc with
  | .insert => some (.inserting s.token s.register queueCapacity queueCapacity)
  | .push _ .complete | .removeGoodbye .entry | .remove .entry => none
  | .push msg pc => some (.push s.register.instanceId msg (some pc))
  | .removeGoodbye pc | .remove pc => some (.removeIf s.register.instanceId s.token (some pc))
  | _ => none

/-- The call of the map that the task is in, when it is no `send_and_wait_for` call. -/
def Stage.inCall : Stage → Option MapCall
  | .task (.session s) => s.inCall
  | _ => none

/-- The call has returned. -/
def MapCall.finished : MapCall → Bool
  | .send c => c.pc.ended
  | .push _ _ pc => pc.isNone
  | .insert .. | .inserting .. => false
  | .inserted .. => true
  | .removeIf _ _ pc => pc.isNone
  | .update _ returned => returned
  | .environment => true

/-- What a section that is in no `send_and_wait_for` call does with the map: nothing, or one
section of a call that begins or that the task is in. -/
inductive MapUse (h h' : Host) (before after : Option MapCall) : Prop
  | spares (same : h'.mapPart = h.mapPart) (keeps : after = before)
  | calls (call call' : MapCall) (i : Choice) (noSend : call.sending = none)
    (origin : before = some call ∨ (before = none ∧ call.Fresh))
    (step : ∀ n, call.step n h.mapPart i = some (h'.mapPart, call'))
    (next : after = some call' ∨ (after = none ∧ call'.finished = true))

theorem Host.Updates.uses {h h' : Host} (hu : h.Updates h') : MapUse h h' none none := by
  rcases hu with same | ⟨u, hu⟩
  · exact .spares same rfl
  · refine .calls (.update u false) (.update u true) .run rfl (.inr ⟨rfl, rfl⟩) (fun n => ?_)
      (.inr ⟨rfl, rfl⟩)
    rw [hu]
    rfl

theorem PushPc.uses {id : String} {msg : SimToServer} {h : Host} (pc : PushPc)
    {before after : Option MapCall}
    (hbefore : before = if pc = .complete then none else some (.push id msg (some pc)))
    (hafter : after = (pc.step id msg h).2.map fun pc => .push id msg (some pc)) :
    MapUse h (pc.step id msg h).1 before after := by
  refine .calls (.push id msg (some pc)) (.push id msg (pc.step id msg h).2) .run rfl ?_
    (fun n => ?_) ?_
  · rw [hbefore]
    split
    · rename_i hpc
      exact .inr ⟨rfl, congrArg some hpc⟩
    · exact .inl rfl
  · simp only [MapCall.step, step_mapPart]
  · rw [hafter]
    cases (pc.step id msg h).2 with
    | none => exact .inr ⟨rfl, rfl⟩
    | some pc' => exact .inl rfl

theorem RemovePc.uses {id : String} {token : Nat} {h h' : Host} {pc : RemovePc} {i : Choice}
    {out : Option RemovePc} (hs : pc.step id token h i = some (h', out))
    {before after : Option MapCall}
    (hbefore : before = if pc = .entry then none else some (.removeIf id token (some pc)))
    (hafter : after = out.map fun pc => .removeIf id token (some pc)) :
    MapUse h h' before after := by
  refine .calls (.removeIf id token (some pc)) (.removeIf id token out) i rfl ?_ (fun n => ?_) ?_
  · rw [hbefore]
    split
    · rename_i hpc
      exact .inr ⟨rfl, congrArg some hpc⟩
    · exact .inl rfl
  · simp only [MapCall.step, step_mapPart hs]
    rfl
  · rw [hafter]
    cases out with
    | none => exact .inr ⟨rfl, rfl⟩
    | some pc' => exact .inl rfl

theorem PushPc.step_ne_complete (id : String) (msg : SimToServer) (h : Host) (pc : PushPc) :
    (pc.step id msg h).2 ≠ some .complete := by
  cases pc with
  | complete =>
    rw [step_complete]
    cases (h.instances.takeMatching msg).1 <;> exact fun he => by cases he
  | _ => exact fun he => by cases he

theorem RemovePc.step_ne_entry {id : String} {token : Nat} {h h' : Host} {pc : RemovePc}
    {i : Choice} {out : Option RemovePc} (hs : pc.step id token h i = some (h', out)) : out ≠ some .entry := by
  cases step_section hs with
  | entry => split <;> exact fun he => by cases he
  | _ => exact fun he => by cases he

namespace Session

theorem afterPush_cases (msg : SimToServer) :
    afterPush msg = .next ∨ afterPush msg = .removeGoodbye .entry := by
  unfold afterPush
  split
  · exact .inr rfl
  · exact .inl rfl

/-- After `push_inbound` the handler is in no call, and in the goodbye branch one begins. -/
theorem inCall_push {s : Session} {msg : SimToServer} {out : Option PushPc}
    (hout : out ≠ some .complete) :
    inCall { s with pc := out.elim (afterPush msg) (.push msg) } =
      out.map fun pc => .push s.register.instanceId msg (some pc) := by
  cases out with
  | none =>
    rcases afterPush_cases msg with hpc | hpc <;> simp only [Option.elim_none, hpc] <;> rfl
  | some pc =>
    cases pc with
    | complete => exact absurd rfl hout
    | _ => rfl

theorem step_uses {h h' : Host} {s s' : Session} {i : Choice} (hs : s.step h i = some (h', s')) :
    MapUse h h' s.inCall s'.inCall := by
  obtain ⟨dialler, register, token, received, pc⟩ := s
  cases step_section hs with
  | @accept item hpc hdial =>
    obtain rfl : pc = .first := hpc
    refine .spares rfl ?_
    cases item with
    | message msg =>
      simp only [accept]
      repeat' split
      all_goals rfl
    | _ => rfl
  | allocToken hpc =>
    obtain rfl : pc = .allocToken := hpc
    exact .calls (.insert register queueCapacity queueCapacity) _ .run rfl (.inr ⟨rfl, trivial⟩)
      (fun n => rfl) (.inl rfl)
  | insert hpc =>
    obtain rfl : pc = .insert := hpc
    exact .calls _ (.inserted token register) .run rfl (.inl rfl) (fun n => rfl) (.inr ⟨rfl, rfl⟩)
  | @owned item hpc =>
    obtain rfl : pc = .owns item := hpc
    refine .spares rfl ?_
    cases item with
    | message msg =>
      simp only [dispatch]
      split <;> rfl
    | _ => rfl
  | heartbeat hpc =>
    obtain rfl : pc = _ := hpc
    exact Host.Updates.uses (.inr ⟨.setHeartbeat register.instanceId token _, rfl⟩)
  | @push msg sub _ out hpc call =>
    obtain rfl : pc = .push msg sub := hpc
    obtain ⟨rfl, rfl⟩ := Prod.mk.inj call.symm
    refine sub.uses ?_ (inCall_push (sub.step_ne_complete _ _ _))
    cases sub <;> rfl
  | @removeGoodbye sub _ _ out hpc call | @remove sub _ _ out hpc call =>
    obtain rfl : pc = _ := hpc
    refine RemovePc.uses call ?_ ?_
    · cases sub <;> rfl
    · cases out with
      | none => rfl
      | some sub' =>
        cases sub' with
        | entry => exact absurd rfl (RemovePc.step_ne_entry call)
        | _ => rfl
  | closed hpc | failed hpc | read hpc | replaced hpc | leave hpc =>
    obtain rfl : pc = _ := hpc
    exact .spares rfl rfl

end Session

theorem Task.step_uses {me : Nat} {h h' : Host} {t t' : Task} {i : Choice}
    (noSend : ∀ call, t ≠ .send call) (hs : t.step me h i = some (h', t')) :
    MapUse h h' (Stage.task t).inCall (Stage.task t').inCall := by
  cases t with
  | send call => exact absurd rfl (noSend call)
  | session s =>
    obtain ⟨s', rfl, hstep⟩ := step_session hs
    exact Session.step_uses hstep
  | environment =>
    obtain ⟨g, hp, he⟩ := Option.map_eq_some_iff.mp hs
    cases he
    rcases environmentStep_mapPart hp with same | hstep
    · exact .spares same rfl
    · refine .calls .environment .environment i rfl (.inr ⟨rfl, trivial⟩) (fun n => ?_)
        (.inr ⟨rfl, rfl⟩)
      exact congrArg (Option.map _) hstep
  | _ =>
    obtain ⟨⟨g, c'⟩, hp, he⟩ := Option.map_eq_some_iff.mp hs
    cases he
    refine Host.Updates.uses ?_
    first
      | exact ObserveCall.step_updates hp
      | exact ViewCall.step_updates hp
      | exact EnqueueCall.step_updates hp
      | exact ShutdownCall.step_updates hp
      | (obtain ⟨s, p, rfl⟩ := SupervisorCall.step_footprint hp; exact .inl rfl)
      | (obtain ⟨s, p, rfl⟩ := StartInstanceCall.step_footprint hp; exact .inl rfl)

end CsmProxy
