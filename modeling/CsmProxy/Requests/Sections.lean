import CsmProxy.Runtime.ToolTasks
import CsmProxy.Waiters.Sections

/-!
# The sections of the tools

What one section of a request can do (`EnqueuePc.step_section`, `WaitPc.step_section`), and
which request a task of the server is at (`ServerTask.stage`, `ServerTask.step_stage`). A
batch goes from one request to the next; its requests are numbered by their steps.
-/

namespace CsmProxy

open Foundations

namespace EnqueuePc

/-- What one section of `enqueue` does. -/
inductive Section (ackRequested : Bool) (payload : ServerPayload) (h : Host) :
    EnqueuePc → Host → EnqueuePc ⊕ Except String (String × UInt64) → Prop
  | default {id : String} (found : h.instances.defaultInstance = some id) :
    Section ackRequested payload h .default h (.inl (.resolve id))
  | noDefault (missing : h.instances.defaultInstance = none) :
    Section ackRequested payload h .default h (.inr (.error (ObserveCall.resolveError .emptyId)))
  | resolved {id : String} {snap : InstanceSnapshot} (found : h.instances.resolve id = .ok snap) :
    Section ackRequested payload h (.resolve id) h (.inl (.nextCorr snap.register.instanceId))
  | unresolved {id : String} {err : ResolveError} (missing : h.instances.resolve id = .error err) :
    Section ackRequested payload h (.resolve id) h (.inr (.error (ObserveCall.resolveError err)))
  | drawn {id : String} :
    Section ackRequested payload h (.nextCorr id) { h with instances := h.instances.takeCorr.2 }
      (.inl (.trySend id h.instances.nextCorr))
  | queued {id : String} {corr : UInt64} {instances : InstanceMap}
      (sent : h.instances.trySend id { corr, ackRequested, payload := some payload } =
        .ok instances) :
    Section ackRequested payload h (.trySend id corr) { h with instances := instances }
      (.inr (.ok (id, corr)))
  | refused {id : String} {corr : UInt64} {failure : TrySendError} {text : String}
      (refusal : h.instances.trySend id { corr, ackRequested, payload := some payload } =
        .error failure) :
    Section ackRequested payload h (.trySend id corr) h (.inr (.error text))

theorem step_section (ackRequested : Bool) (payload : ServerPayload) (h : Host) (pc : EnqueuePc) :
    Section ackRequested payload h pc (pc.step ackRequested payload h).1
      (pc.step ackRequested payload h).2 := by
  cases pc with
  | default =>
    simp only [step]
    cases hd : h.instances.defaultInstance with
    | some id => exact .default hd
    | none => exact .noDefault hd
  | resolve id =>
    simp only [step]
    cases hr : h.instances.resolve id with
    | ok snap => exact .resolved hr
    | error err => exact .unresolved hr
  | nextCorr id => exact .drawn
  | trySend id corr =>
    simp only [step]
    cases hs : h.instances.trySend id { corr, ackRequested, payload := some payload } with
    | ok instances => exact .queued hs
    | error failure => cases failure <;> exact .refused hs

end EnqueuePc

namespace WaitPc

/-- What one section of a request that is waited for does. -/
inductive Section (tx : Nat) (ackRequested : Bool) (payload : ServerPayload) (w : Waiting)
    (h : Host) : WaitPc → Choice → Host → WaitPc ⊕ Except ToolError ToolReply → Prop
  | default {id : String} (found : h.instances.defaultInstance = some id) :
    Section tx ackRequested payload w h .default .run h (.inl (.resolve id))
  | noDefault (missing : h.instances.defaultInstance = none) :
    Section tx ackRequested payload w h .default .run h (.inr (.error .emptyId))
  | resolved {id : String} {snap : InstanceSnapshot} (found : h.instances.resolve id = .ok snap) :
    Section tx ackRequested payload w h (.resolve id) .run h
      (.inl (.nextCorr snap.register.instanceId))
  | unresolved {id : String} {err : ResolveError} (missing : h.instances.resolve id = .error err) :
    Section tx ackRequested payload w h (.resolve id) .run h (.inr (.error (.ofResolve err)))
  | drawn {id : String} :
    Section tx ackRequested payload w h (.nextCorr id) .run
      { h with instances := h.instances.takeCorr.2 }
      (.inl (.send (callFor ackRequested payload w id h.instances.nextCorr)))
  | send {call call' : SendCall} {i : Choice} {h' : Host}
      (step : call.step tx h i = some (h', call')) :
    Section tx ackRequested payload w h (.send call) i h' (afterSend call')
  | read {id : String} {corr : UInt64} {reply : SimToServer} :
    Section tx ackRequested payload w h (.read id corr reply) .run h
      (.inr (w.reader.read h.instances id corr reply))

theorem step_section {tx : Nat} {ackRequested : Bool} {payload : ServerPayload} {w : Waiting}
    {h h' : Host} {pc : WaitPc} {i : Choice} {out : WaitPc ⊕ Except ToolError ToolReply}
    (hs : pc.step tx ackRequested payload w h i = some (h', out)) :
    Section tx ackRequested payload w h pc i h' out := by
  cases pc with
  | default =>
    cases i <;> simp only [step] at hs
    case run =>
      split at hs
      · rename_i id hd
        cases hs
        exact .default hd
      · rename_i hd
        cases hs
        exact .noDefault hd
    all_goals cases hs
  | resolve id =>
    cases i <;> simp only [step] at hs
    case run =>
      split at hs
      · rename_i snap hr
        cases hs
        exact .resolved hr
      · rename_i err hr
        cases hs
        exact .unresolved hr
    all_goals cases hs
  | nextCorr id => cases i <;> cases hs; exact .drawn
  | send call =>
    obtain ⟨⟨g, call'⟩, hcall, he⟩ := Option.map_eq_some_iff.mp hs
    cases he
    exact .send hcall
  | read id corr reply => cases i <;> cases hs; exact .read

end WaitPc

/-! ## Which request a task is at -/

/-- What a task of the server is doing. -/
inductive Stage where
  | task (t : Task)
  /-- A batch before its first request. -/
  | before
  | request (number : Nat) (r : ToolRequest) (pc : RequestPc)
  | over
deriving DecidableEq

/-- What the task is doing. -/
def ServerTask.stage : ServerTask → Stage
  | .task t => .task t
  | .tool c =>
    match c.state with
    | .inl pc => .request 0 c.request pc
    | .inr _ => .over
  | .batch c =>
    match c.pc with
    | .default | .resolve _ => .before
    | .step _ index _ r pc _ => .request index r pc
    | .returned _ => .over

/-- What one section of task `me` does. -/
inductive Stage.Section (me : Nat) (h : Host) (i : Choice) : Host → Stage → Stage → Prop
  | task {t t' : Task} {h' : Host} (noSend : ∀ call, t ≠ .send call)
      (step : t.step (own me) h i = some (h', t')) : Section me h i h' (.task t) (.task t')
  | resolving : Section me h i h .before .before
  | refused : Section me h i h .before .over
  | begins {r : ToolRequest} {id : Option String} :
    Section me h i h .before (.request 0 r (r.start id))
  | advances {k : Nat} {r : ToolRequest} {pc pc' : RequestPc} {h' : Host}
      (step : pc.step (channel me k) r h i = some (h', .inl pc')) :
    Section me h i h' (.request k r pc) (.request k r pc')
  | follows {k : Nat} {r r' : ToolRequest} {pc : RequestPc} {h' : Host} {value : ToolReply}
      {id : Option String} (step : pc.step (channel me k) r h i = some (h', .inr (.ok value))) :
    Section me h i h' (.request k r pc) (.request (k + 1) r' (r'.start id))
  | returns {k : Nat} {r : ToolRequest} {pc : RequestPc} {h' : Host}
      {result : Except String ToolReply}
      (step : pc.step (channel me k) r h i = some (h', .inr result)) :
    Section me h i h' (.request k r pc) .over

/-- The batch goes on with its next request, or returns. -/
theorem BatchPc.stage_enter (c : BatchCall) (id : String) (index : Nat)
    (results : List BatchEntry) (rest : List InjectBatchStep) :
    (ServerTask.batch { c with pc := .enter c.shared id index results rest }).stage = .over ∨
      ∃ r, (ServerTask.batch { c with pc := .enter c.shared id index results rest }).stage =
        .request index r (r.start (some id)) := by
  cases rest with
  | nil => exact .inl rfl
  | cons first rest =>
    simp only [ServerTask.stage, enter]
    cases first.request c.shared with
    | ok r => exact .inr ⟨r, rfl⟩
    | error err => exact .inl rfl

theorem ServerTask.step_stage {me : Nat} {h h' : Host} {t t' : ServerTask} {i : Choice}
    (hs : t.step me h i = some (h', t')) : Stage.Section me h i h' t.stage t'.stage := by
  cases t with
  | task t =>
    have hsend : ∀ call, t ≠ .send call := by
      rintro call rfl
      cases hs
    have hmap : (t.step (own me) h i).map (fun r => (r.1, ServerTask.task r.2)) =
        some (h', t') := by
      cases t with
      | send call => exact absurd rfl (hsend call)
      | _ => exact hs
    obtain ⟨⟨g, u⟩, hstep, he⟩ := Option.map_eq_some_iff.mp hmap
    cases he
    exact .task hsend hstep
  | tool c =>
    obtain ⟨⟨g, c'⟩, hstep, he⟩ := Option.map_eq_some_iff.mp hs
    cases he
    obtain ⟨r, state⟩ := c
    cases state with
    | inr result => cases hstep
    | inl pc =>
      obtain ⟨⟨g, out⟩, hpc, he⟩ := Option.map_eq_some_iff.mp hstep
      cases he
      cases out with
      | inl pc' => exact .advances hpc
      | inr result => exact .returns hpc
  | batch c =>
    obtain ⟨⟨g, c'⟩, hstep, he⟩ := Option.map_eq_some_iff.mp hs
    cases he
    obtain ⟨shared, steps, pc⟩ := c
    cases pc with
    | default =>
      cases i <;> simp only [BatchCall.step] at hstep
      case run => split at hstep <;> cases hstep <;> first | exact .resolving | exact .refused
      all_goals cases hstep
    | resolve id =>
      cases i <;> simp only [BatchCall.step] at hstep
      case run =>
        split at hstep
        · rename_i snap hr
          cases hstep
          rcases BatchPc.stage_enter ⟨shared, steps, .default⟩ snap.register.instanceId 0 [] steps
            with hover | ⟨r, hr⟩
          · rw [hover]
            exact .refused
          · rw [hr]
            exact .begins
        · cases hstep
          exact .refused
      all_goals cases hstep
    | step id index results r pc rest =>
      obtain ⟨⟨g, out⟩, hpc, he⟩ := Option.map_eq_some_iff.mp hstep
      cases he
      rcases out with pc' | err | value
      · exact .advances hpc
      · exact .returns hpc
      · rcases BatchPc.stage_enter ⟨shared, steps, .default⟩ id (index + 1)
          (results ++ [⟨index, .ok value⟩]) rest with hover | ⟨r', hr⟩
        · rw [hover]
          exact .returns hpc
        · rw [hr]
          exact .follows hpc
    | returned result => cases i <;> cases hstep

/-- A step of the server is a section of the task that steps, and no other task moves. -/
theorem fire_stage {c c' : Config Host ServerTask} {me : Nat} {i : Choice}
    (hf : server.fire c me i = some c') :
    Stage.Section me c.shared i c'.shared (c.task me).stage (c'.task me).stage ∧
      ∀ t, t ≠ me → c'.task t = c.task t :=
  ⟨ServerTask.step_stage (fire_serverTask hf).1, (fire_serverTask hf).2⟩

end CsmProxy
