import CsmProxy.Foundations.History
import CsmProxy.Requests.Refinement
import CsmProxy.Runtime.Footprint
import CsmProxy.Waiters.Steps

/-!
# Requests and their corrs

A task that has drawn a corr holds an envelope (`Stage.outgoing`) until it is queued or
refused. `Stage.step_move` says what one section does with it; `requestHistory` is the
server with a history of the envelopes queued and of the waiters registered.
-/

namespace CsmProxy

open Foundations

/-- A waiter is stored, or an envelope is queued for the instance `id`. `session` is the token
that owned the id then, and `tx` the channel of a request that is waited for. -/
inductive RequestEvent where
  | registered (tx : Nat) (corr : UInt64) (kind : WaitKind)
  | queued (tx : Nat) (id : String) (session : Option Nat) (msg : ServerToSim)
deriving DecidableEq

/-! ## The envelope of a task -/

/-- The envelope that the call has drawn a corr for. -/
def EnqueuePc.outgoing (ackRequested : Bool) (payload : ServerPayload) :
    EnqueuePc → Option (String × ServerToSim)
  | .trySend id corr => some (id, { corr, ackRequested, payload := some payload })
  | _ => none

/-- The envelope, until the call has handed it to the queue. -/
def SendCall.outgoing (c : SendCall) : Option (String × ServerToSim) :=
  match c.pc with
  | .get | .insertWaiter | .insertInstance | .trySend => some (c.instanceId, c.msg)
  | _ => none

/-- The payload that the task enqueues, and how far it is. -/
def Task.enqueuing : Task → Option (Bool × ServerPayload × EnqueuePc)
  | .enqueue c => if c.result.isNone then some (c.ackRequested, c.payload, c.pc) else none
  | .view c =>
    match c.pc with
    | .enqueue _ pc =>
      some (false, .setSessionView (wireSessionViewPaths c.paths) c.excludeLogComponents, pc)
    | _ => none
  | .shutdown c =>
    match c.pc with
    | .enqueue pc => some (false, .shutdown, pc)
    | _ => none
  | _ => none

namespace Stage

/-- The payload that the task enqueues, and how far it is. -/
def enqueuing : Stage → Option (Bool × ServerPayload × EnqueuePc)
  | .task t => t.enqueuing
  | .request _ r (.enqueue pc) => some (r.ackRequested, r.payload, pc)
  | _ => none

/-- The `send_and_wait_for` call that the task is in. -/
def sending : Stage → Option SendCall
  | .request _ _ pc => pc.sending
  | _ => none

/-- The envelope that the task has drawn a corr for and not handed to the queue. -/
def outgoing (s : Stage) : Option (String × ServerToSim) :=
  match s.enqueuing with
  | some (ackRequested, payload, pc) => pc.outgoing ackRequested payload
  | none => s.sending.bind SendCall.outgoing

/-- The number by which the task goes. -/
def name (me : Nat) : Stage → Nat
  | .request number _ _ => channel me number
  | _ => own me

end Stage

/-- The envelope is queued, if there is room. -/
def noteQueued (tx : Nat) (h : Host) (id : String) (msg : ServerToSim) : Option RequestEvent :=
  match h.instances.trySend id msg with
  | .ok _ => some (.queued tx id (h.instances.tokenOf id) msg)
  | .error _ => none

/-- The event that the next section of the call is. -/
def EnqueuePc.note (tx : Nat) (h : Host) (ackRequested : Bool) (payload : ServerPayload) :
    EnqueuePc → Option RequestEvent
  | .trySend id corr => noteQueued tx h id { corr, ackRequested, payload := some payload }
  | _ => none

/-- The event that the next section of the call is. -/
def SendCall.note (tx : Nat) (h : Host) (c : SendCall) : Option RequestEvent :=
  match c.pc with
  | .insertWaiter => some (.registered tx c.msg.corr c.kind)
  | .trySend => noteQueued tx h c.instanceId c.msg
  | _ => none

/-- The event that the next section of task `me` is. -/
def Stage.note (me : Nat) (h : Host) (s : Stage) : Option RequestEvent :=
  match s.enqueuing with
  | some (ackRequested, payload, pc) => pc.note (s.name me) h ackRequested payload
  | none => s.sending.bind (SendCall.note (s.name me) h)

/-- The events of the server's requests. -/
def noteRequest : Note Host ServerTask Choice RequestEvent := fun me h t _ => t.stage.note me h

/-- The server with the history of its requests. -/
def requestHistory : Pool (Host × List RequestEvent) ServerTask Choice := server.recording noteRequest

/-! ## One section -/

/-- Neither the waiters nor the counter of corrs changes. -/
structure Host.Quiet (h h' : Host) : Prop where
  waiters : SameWaiters h h'
  counter : h'.instances.nextCorr = h.instances.nextCorr

theorem Host.Quiet.refl (h : Host) : h.Quiet h := ⟨⟨rfl, rfl, rfl⟩, rfl⟩

/-- The task makes no call. -/
structure Stage.Idle (s : Stage) : Prop where
  outgoing : s.outgoing = none
  sending : s.sending = none

/-- The section is a section of `enqueue`. -/
structure Stage.Enqueues (h h' : Host) (s s' : Stage) (ackRequested : Bool)
    (payload : ServerPayload) (pc : EnqueuePc) : Prop where
  before : s.enqueuing = some (ackRequested, payload, pc)
  host : h' = (pc.step ackRequested payload h).1
  next : ∀ pc', (pc.step ackRequested payload h).2 = .inl pc' →
    s'.enqueuing = some (ackRequested, payload, pc')
  last : ∀ result, (pc.step ackRequested payload h).2 = .inr result → s'.Idle

/-- What one section of task `me` does with its envelope and with the waiters. -/
inductive Stage.Move (me : Nat) (h : Host) (i : Choice) (h' : Host) (s s' : Stage) : Prop
  | enqueue {ackRequested : Bool} {payload : ServerPayload} {pc : EnqueuePc}
    (moves : Enqueues h h' s s' ackRequested payload pc)
  | draw {call : SendCall} (idle : s.Idle) (pc : call.pc = .get)
    (corr : call.msg.corr = h.instances.nextCorr)
    (host : h' = { h with instances := h.instances.takeCorr.2 }) (next : s'.sending = some call)
  | send {call call' : SendCall} (before : s.sending = some call)
    (step : call.step (s.name me) h i = some (h', call'))
    (next : (s'.sending = some call' ∧ s'.name me = s.name me) ∨
      ((∃ result, call'.pc = .returned result) ∧ s'.Idle))
  | session {sn sn' : Session} (before : s = .task (.session sn))
    (step : sn.step h i = some (h', sn')) (next : s' = .task (.session sn'))
  | other (idle : s.Idle) (quiet : h.Quiet h') (next : s'.Idle)

theorem InstanceMap.tryRecvInbound_quiet (m : InstanceMap) (id : String) :
    (m.tryRecvInbound id).2.waiters = m.waiters ∧
      (m.tryRecvInbound id).2.waiterInstance = m.waiterInstance ∧
      (m.tryRecvInbound id).2.nextCorr = m.nextCorr := by
  unfold tryRecvInbound
  split <;> exact ⟨rfl, rfl, rfl⟩

theorem ObserveCall.step_quiet {me : Nat} {h h' : Host} {c c' : ObserveCall} {i : Choice}
    (hs : c.step me h i = some (h', c')) : h.Quiet h' := by
  have hquiet := h.instances.tryRecvInbound_quiet c.id
  cases step_cases hs with
  | pop hpc hrecv | drained hpc hrecv =>
    rw [hrecv] at hquiet
    obtain ⟨hw, hi, hc⟩ := hquiet
    exact ⟨⟨hw, hi, rfl⟩, hc⟩
  | _ => exact .refl h

theorem environmentStep_quiet {h h' : Host} {i : Choice} (hs : environmentStep h i = some h') :
    h.Quiet h' := by
  refine ⟨(environmentStep_frame hs).1, ?_⟩
  cases i <;> cases hs <;> rfl

/-- A view call enqueues, or leaves the waiters and the counter alone. -/
theorem ViewCall.step_moves {h h' : Host} {c c' : ViewCall} {i : Choice}
    (hs : c.step h i = some (h', c')) :
    (∃ ackRequested payload pc,
      Stage.Enqueues h h' (.task (.view c)) (.task (.view c')) ackRequested payload pc) ∨
    ((Stage.task (.view c)).Idle ∧ h.Quiet h' ∧ (Stage.task (.view c')).Idle) := by
  obtain ⟨paths, exclude, pc⟩ := c
  cases i with
  | run =>
    cases pc with
    | enqueue id pc =>
      refine .inl ⟨false, .setSessionView (wireSessionViewPaths paths) exclude, pc, ?_⟩
      simp only [step] at hs
      split at hs <;> (rename_i he; cases hs; refine ⟨rfl, ?_, ?_, ?_⟩ <;> rw [he])
      · intro pc' hout
        cases hout
        rfl
      · intro result hout
        cases hout
      all_goals first | exact fun _ _ => ⟨rfl, rfl⟩ | exact fun _ hout => by cases hout
    | default | resolve id =>
      simp only [step] at hs
      split at hs <;> (cases hs; exact .inr ⟨⟨rfl, rfl⟩, .refl _, ⟨rfl, rfl⟩⟩)
    | setReadMask id corr | setExclude id corr =>
      cases hs
      exact .inr ⟨⟨rfl, rfl⟩, ⟨⟨rfl, rfl, rfl⟩, rfl⟩, ⟨rfl, rfl⟩⟩
    | returned result => cases hs
  | _ => cases pc <;> cases hs

/-- The same of a call that only enqueues. -/
theorem EnqueueCall.step_moves {h h' : Host} {c c' : EnqueueCall} {i : Choice}
    (hs : c.step h i = some (h', c')) :
    Stage.Enqueues h h' (.task (.enqueue c)) (.task (.enqueue c')) c.ackRequested c.payload
      c.pc := by
  obtain ⟨ackRequested, payload, pc, result⟩ := c
  cases i with
  | run =>
    cases result with
    | none =>
      simp only [step] at hs
      split at hs <;> (rename_i he; cases hs; refine ⟨rfl, ?_, ?_, ?_⟩ <;> rw [he])
      · intro pc' hout
        cases hout
        rfl
      · intro result hout
        cases hout
      · intro pc' hout
        cases hout
      · exact fun _ _ => ⟨rfl, rfl⟩
    | some result => cases hs
  | _ => cases result <;> cases hs

theorem ShutdownCall.step_moves {me : Nat} {h h' : Host} {c c' : ShutdownCall} {i : Choice}
    (hs : c.step me h i = some (h', c')) :
    (∃ ackRequested payload pc, Stage.Enqueues h h' (.task (.shutdown c)) (.task (.shutdown c'))
      ackRequested payload pc) ∨
    ((Stage.task (.shutdown c)).Idle ∧ h.Quiet h' ∧ (Stage.task (.shutdown c')).Idle) := by
  obtain ⟨instanceId, pc⟩ := c
  cases pc with
  | enqueue pc =>
    refine .inl ⟨false, .shutdown, pc, ?_⟩
    cases i <;> simp only [step] at hs
    case run =>
      split at hs <;> (rename_i he; cases hs; refine ⟨rfl, ?_, ?_, ?_⟩ <;> rw [he])
      · intro pc' hout
        cases hout
        rfl
      · intro result hout
        cases hout
      · intro pc' hout
        cases hout
      · exact fun _ _ => ⟨rfl, rfl⟩
    all_goals cases hs
  | choose queued =>
    cases i <;> simp only [step] at hs
    case run => split at hs <;> (cases hs; exact .inr ⟨⟨rfl, rfl⟩, .refl _, ⟨rfl, rfl⟩⟩)
    all_goals cases hs
  | reap queued id pc =>
    obtain ⟨⟨g, out⟩, hp, he⟩ := Option.map_eq_some_iff.mp hs
    cases he
    obtain ⟨s, p, rfl⟩ := ReapPc.step_footprint hp
    refine .inr ⟨⟨rfl, rfl⟩, ⟨⟨rfl, rfl, rfl⟩, rfl⟩, ?_⟩
    cases out <;> exact ⟨rfl, rfl⟩
  | returned queued => cases i <;> cases hs

/-- A task of the proxy that is neither a stream's handler nor a waiting call. -/
theorem Task.step_moves {me : Nat} {h h' : Host} {t t' : Task} {i : Choice}
    (hs : t.step me h i = some (h', t')) (hsession : ∀ s, t ≠ .session s)
    (hsend : ∀ c, t ≠ .send c) :
    (∃ ackRequested payload pc,
      Stage.Enqueues h h' (.task t) (.task t') ackRequested payload pc) ∨
    ((Stage.task t).Idle ∧ h.Quiet h' ∧ (Stage.task t').Idle) := by
  cases t with
  | session s => exact absurd rfl (hsession s)
  | send c => exact absurd rfl (hsend c)
  | environment =>
    obtain ⟨g, hp, he⟩ := Option.map_eq_some_iff.mp hs
    cases he
    exact .inr ⟨⟨rfl, rfl⟩, environmentStep_quiet hp, ⟨rfl, rfl⟩⟩
  | _ =>
    obtain ⟨⟨g, c'⟩, hp, he⟩ := Option.map_eq_some_iff.mp hs
    cases he
    first
      | exact ViewCall.step_moves hp
      | exact .inl ⟨_, _, _, EnqueueCall.step_moves hp⟩
      | exact ShutdownCall.step_moves hp
      | exact .inr ⟨⟨rfl, rfl⟩, ObserveCall.step_quiet hp, ⟨rfl, rfl⟩⟩
      | (obtain ⟨s, p, rfl⟩ := SupervisorCall.step_footprint hp
         exact .inr ⟨⟨rfl, rfl⟩, ⟨⟨rfl, rfl, rfl⟩, rfl⟩, ⟨rfl, rfl⟩⟩)
      | (obtain ⟨s, p, rfl⟩ := StartInstanceCall.step_footprint hp
         exact .inr ⟨⟨rfl, rfl⟩, ⟨⟨rfl, rfl, rfl⟩, rfl⟩, ⟨rfl, rfl⟩⟩)

/-- A request that begins holds no envelope yet. -/
theorem Stage.idle_start (number : Nat) (r : ToolRequest) (id : Option String) :
    (Stage.request number r (r.start id)).Idle := by
  unfold ToolRequest.start
  cases hw : r.wait <;> cases id <;> exact ⟨rfl, rfl⟩

/-- A section of a request, up to its return. -/
theorem RequestPc.step_moves {me number : Nat} {r : ToolRequest} {pc : RequestPc} {h h' : Host}
    {i : Choice} {out : RequestPc ⊕ Except String ToolReply} {s' : Stage}
    (hs : pc.step (channel me number) r h i = some (h', out))
    (hnext : ∀ pc', out = .inl pc' → s' = .request number r pc')
    (hlast : ∀ result, out = .inr result → s'.Idle) :
    Stage.Move me h i h' (.request number r pc) s' := by
  cases pc with
  | enqueue q =>
    cases i <;> simp only [step] at hs
    case run =>
      obtain ⟨rfl, rfl⟩ := Prod.mk.inj (Option.some.inj hs)
      have hmoves : Stage.Enqueues h (q.step r.ackRequested r.payload h).1
          (.request number r (.enqueue q)) s' r.ackRequested r.payload q := by
        refine ⟨rfl, rfl, fun q' hq => ?_, fun result hq => ?_⟩
        · rw [hnext (.enqueue q') (by rw [hq]; rfl)]
          rfl
        · exact hlast _ (by rw [hq]; rfl)
      exact .enqueue hmoves
    all_goals cases hs
  | wait w pc =>
    obtain ⟨⟨g, res⟩, hpc, he⟩ := Option.map_eq_some_iff.mp hs
    cases he
    cases WaitPc.step_section hpc with
    | default | resolved =>
      rw [hnext _ rfl]
      exact .other ⟨rfl, rfl⟩ (.refl _) ⟨rfl, rfl⟩
    | noDefault | unresolved | read => exact .other ⟨rfl, rfl⟩ (.refl _) (hlast _ rfl)
    | drawn =>
      rw [hnext _ rfl]
      exact .draw ⟨rfl, rfl⟩ rfl rfl rfl rfl
    | @send call call' _ _ hcall =>
      have hbefore : (Stage.request number r (.wait w (.send call))).sending = some call := rfl
      refine .send hbefore hcall ?_
      cases hpc' : call'.pc with
      | returned result =>
        refine .inr ⟨⟨result, rfl⟩, ?_⟩
        cases result with
        | ok reply =>
          rw [hnext (.wait w (.read call'.instanceId call'.msg.corr reply))
            (by simp only [WaitPc.afterSend, hpc']; rfl)]
          exact ⟨rfl, rfl⟩
        | error err => exact hlast _ (by simp only [WaitPc.afterSend, hpc']; rfl)
      | _ =>
        rw [hnext (.wait w (.send call')) (by simp only [WaitPc.afterSend, hpc']; rfl)]
        exact .inl ⟨rfl, rfl⟩

theorem Stage.Section.move {me : Nat} {h h' : Host} {i : Choice} {s s' : Stage}
    (hs : Stage.Section me h i h' s s') : Stage.Move me h i h' s s' := by
  cases hs with
  | @task t t' _ noSend step =>
    by_cases hsession : ∃ sn, t = .session sn
    · obtain ⟨sn, rfl⟩ := hsession
      obtain ⟨sn', rfl, hsn⟩ := Task.step_session step
      exact .session rfl hsn rfl
    · rcases Task.step_moves step (fun sn h => hsession ⟨sn, h⟩) noSend with
        ⟨_, _, _, hmoves⟩ | ⟨hidle, hquiet, hidle'⟩
      · exact .enqueue hmoves
      · exact .other hidle hquiet hidle'
  | resolving | refused => exact .other ⟨rfl, rfl⟩ (.refl _) ⟨rfl, rfl⟩
  | begins => exact .other ⟨rfl, rfl⟩ (.refl _) (Stage.idle_start ..)
  | advances step =>
    exact RequestPc.step_moves step (fun _ h => by cases h; rfl) fun _ h => by cases h
  | follows step =>
    exact RequestPc.step_moves step (fun _ h => by cases h) fun _ _ => Stage.idle_start ..
  | returns step =>
    exact RequestPc.step_moves step (fun _ h => by cases h) fun _ _ => ⟨rfl, rfl⟩

/-- A step of the recording server: what its task does, and the event it is. -/
theorem fire_request {c c' : Config (Host × List RequestEvent) ServerTask} {me : Nat} {i : Choice}
    (hf : requestHistory.fire c me i = some c') :
    Stage.Move me c.shared.1 i c'.shared.1 (c.task me).stage (c'.task me).stage ∧
      c'.shared.2 = ((c.task me).stage.note me c.shared.1).toList ++ c.shared.2 ∧
      ∀ t, t ≠ me → c'.task t = c.task t := by
  obtain ⟨hfire, hlog⟩ := Pool.fire_recording hf
  obtain ⟨hs, hother⟩ := fire_stage hfire
  exact ⟨hs.move, hlog, hother⟩

end CsmProxy
