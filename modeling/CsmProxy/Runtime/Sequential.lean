import CsmProxy.Runtime.MapCalls
import Mathlib.Data.Finset.Sort

/-!
# Methods with nothing in between

`push_inbound`, the read loop of a stream and `observe`, each executed from its call
to its return while no other task steps. Every definition is the source function read
as a sequential program, and a lemma says that it is what the sections of the task
compute when the task runs alone (`Pool.RunsTo`).
-/

namespace CsmProxy

open Foundations

/-! ## `push_inbound` -/

namespace Host

/-- `complete_waiter`, inside `push_inbound(via, msg)`. -/
def completeWaiter (h : Host) (via : String) (msg : SimToServer) : Host :=
  match h.instances.takeMatching msg with
  | (some tx, instances) =>
    ({ h with instances := instances.removeWaiterInstance msg.corr } : Host).sendReply tx via msg
  | (none, instances) => { h with instances := instances }

/-- `push_inbound` -/
def pushInbound (h : Host) (id : String) (msg : SimToServer) : Host :=
  let h := h.completeWaiter id msg
  { h with instances := h.instances.enqueueInbound id msg }

theorem completeWaiter_inner (h : Host) (via : String) (msg : SimToServer) :
    (h.completeWaiter via msg).instances.inner = h.instances.inner := by
  have hframe := (h.instances.takeMatching_frame msg).1
  unfold completeWaiter
  split <;> (rename_i htake; rw [htake] at hframe; exact hframe)

end Host

/-- The sections of `push_inbound`, in any task that runs them. `task` says where the task
is when `push_inbound` is in a section, and when it has returned. -/
theorem PushPc.runsTo {L : Type} {P : Pool Host L Choice} {me : Nat} {id : String}
    {msg : SimToServer} (task : Option PushPc → L)
    (hstep : ∀ h pc, P.step me h (task (some pc)) .run =
      some ((PushPc.step id msg h pc).1, task (PushPc.step id msg h pc).2)) (h : Host) :
    P.RunsTo me h (task (some .complete)) (h.pushInbound id msg) (task none) := by
  unfold Host.pushInbound Host.completeWaiter
  have hfirst := hstep h .complete
  rw [PushPc.step_complete] at hfirst
  change _ = some (({ h with instances := (h.instances.takeMatching msg).2 } : Host), _) at hfirst
  cases htake : h.instances.takeMatching msg with
  | mk tx instances =>
    rw [htake] at hfirst
    refine .head hfirst ?_
    have hlast : ∀ h₁ : Host, P.RunsTo me h₁ (task (some .enqueue))
        { h₁ with instances := h₁.instances.enqueueInbound id msg } (task none) := fun h₁ =>
      .head (hstep h₁ .enqueue) (.refl ..)
    cases tx with
    | none => exact hlast _
    | some tx => exact .head (hstep _ (.forget tx)) (.head (hstep _ (.reply tx)) (hlast _))

theorem push_runsTo (me : Nat) (h : Host) (id : String) (msg : SimToServer) :
    mapCalls.RunsTo me h (.push id msg (some .complete)) (h.pushInbound id msg)
      (.push id msg none) :=
  PushPc.runsTo (MapCall.push id msg) (fun _ _ => rfl) h

/-! ## `remove_if` -/

namespace Host

/-- `take_waiter` of a caller that drops the sender. -/
def takeWaiter (h : Host) (corr : UInt64) : Host :=
  let (tx, instances) := (h.instances.removeWaiterInstance corr).removeWaiter corr
  ({ h with instances := instances } : Host).dropSender tx

/-- `fail_waiters`, with the corrs in increasing order. -/
def failWaiters (h : Host) (id : String) : Host :=
  ((h.instances.waitersOf id).sort (· ≤ ·)).foldl takeWaiter h

/-- `remove_if` -/
def removeIf (h : Host) (id : String) (token : Nat) : Host :=
  let removed := { h with instances := h.instances.removeEntry id token }
  if h.instances.owns id token then removed.failWaiters id else removed

end Host

/-- The sections of `remove_if`, in any task that runs them. -/
theorem RemovePc.runsTo {L : Type} {P : Pool Host L Choice} {me : Nat} {id : String}
    {token : Nat} (task : Option RemovePc → L)
    (hstep : ∀ h pc i h' out, RemovePc.step id token h pc i = some (h', out) →
      P.step me h (task (some pc)) i = some (h', task out)) (h : Host) :
    P.RunsTo me h (task (some .entry)) (h.removeIf id token) (task none) := by
  have hloop : ∀ (l : List UInt64) (h : Host), l.Nodup →
      P.RunsTo me h (task (some (.next l.toFinset))) (l.foldl Host.takeWaiter h) (task none) := by
    intro l
    induction l with
    | nil => exact fun h _ => .head (hstep h _ .run h none rfl) (.refl ..)
    | cons corr l ih =>
      intro h hnodup
      obtain ⟨hnew, hl⟩ := List.nodup_cons.mp hnodup
      have hmem : corr ∈ (corr :: l).toFinset := List.mem_toFinset.mpr List.mem_cons_self
      have herase : (corr :: l).toFinset.erase corr = l.toFinset := by
        rw [List.toFinset_cons, Finset.erase_insert (by simpa using hnew)]
      refine .head (hstep h _ (.pick corr) _ _ (if_pos hmem)) ?_
      refine .head (hstep _ _ .run _ _ rfl) ?_
      rw [herase]
      exact ih _ hl
  refine .head (hstep h _ .run _ _ rfl) ?_
  unfold Host.removeIf
  split
  · refine .head (hstep _ _ .run _ _ rfl) ?_
    have hrun := hloop _ { h with instances := h.instances.removeEntry id token }
      (Finset.sort_nodup ((h.instances.removeEntry id token).waitersOf id) (· ≤ ·))
    rwa [Finset.sort_toFinset] at hrun
  · exact .refl ..

theorem removeIf_runsTo (me : Nat) (h : Host) (id : String) (token : Nat) :
    mapCalls.RunsTo me h (.removeIf id token (some .entry)) (h.removeIf id token)
      (.removeIf id token none) :=
  RemovePc.runsTo (MapCall.removeIf id token)
    (fun h pc i h' out hs => by simp [mapCalls, MapCall.step, hs]) h

/-! ## The read loop -/

namespace Session

/-- `push_inbound` inside the read loop. -/
theorem push_runsTo (me : Nat) (h : Host) (s : Session) (msg : SimToServer) :
    proxy.RunsTo me h (.session { s with pc := .push msg .complete })
      (h.pushInbound s.register.instanceId msg) (.session { s with pc := afterPush msg }) :=
  PushPc.runsTo (P := proxy)
    (fun pc => .session { s with pc := pc.elim (afterPush msg) (.push msg) }) (fun _ _ => rfl) h

/-- The message ends the loop. -/
def isGoodbye (msg : SimToServer) : Bool :=
  match msg.payload with
  | some (.goodbye _) => true
  | _ => false

/-- The loop body up to the end of `push_inbound`. -/
def receive (s : Session) (h : Host) (msg : SimToServer) : Host :=
  match msg.payload with
  | some (.heartbeat heartbeat) =>
    let instances := h.instances.setHeartbeat s.register.instanceId s.token heartbeat
    ({ h with instances := instances } : Host).pushInbound s.register.instanceId msg
  | _ => h.pushInbound s.register.instanceId msg

/-- The read loop on a list of messages. -/
def readLoop (s : Session) (h : Host) : List SimToServer → Host
  | [] => h
  | msg :: rest =>
    if h.instances.owns s.register.instanceId s.token then
      if isGoodbye msg then (s.receive h msg).removeIf s.register.instanceId s.token
      else s.readLoop (s.receive h msg) rest
    else h

/-- One turn of the loop. After a goodbye the handler is about to leave. -/
theorem receive_runsTo (me : Nat) {h : Host} {s : Session} {msg : SimToServer}
    (hpc : s.pc = .next) (hown : h.instances.owns s.register.instanceId s.token = true) :
    proxy.RunsTo me h (.session s)
      (if isGoodbye msg then (s.receive h msg).removeIf s.register.instanceId s.token
        else s.receive h msg)
      (.session { s with
        received := s.received ++ [msg]
        pc := if isGoodbye msg then .leaving else .next }) := by
  obtain ⟨dialler, register, token, received, pc⟩ := s
  obtain rfl : pc = .next := hpc
  refine .head (i := .item (.message msg)) rfl ?_
  have howns : proxy.step me h (.session ⟨dialler, register, token, received ++ [msg],
      .owns (.message msg)⟩) .run = some (h, .session ⟨dialler, register, token, received ++ [msg],
        dispatch (.message msg)⟩) := by
    simp only [proxy, Task.step, step, hown, if_true, Option.map_some]
  refine .head howns ?_
  have hpush : ∀ h' : Host, proxy.RunsTo me h' (.session ⟨dialler, register, token,
      received ++ [msg], .push msg .complete⟩) (h'.pushInbound register.instanceId msg)
      (.session ⟨dialler, register, token, received ++ [msg], afterPush msg⟩) := fun h' =>
    push_runsTo me h' ⟨dialler, register, token, received ++ [msg], .next⟩ msg
  obtain ⟨seq, corr, payload⟩ := msg
  rcases payload with _ | payload
  · exact hpush h
  · cases payload with
    | heartbeat heartbeat => exact .head (i := .run) rfl (hpush _)
    | goodbye goodbye =>
      refine (hpush h).trans ?_
      exact RemovePc.runsTo (P := proxy)
        (fun pc => .session ⟨dialler, register, token, _, pc.elim .leaving .removeGoodbye⟩)
        (fun h pc i h' out hs => by
          simp only [proxy, Task.step, step, Option.elim_some, hs, Option.map_some]) _
    | _ => exact hpush h

end Session

end CsmProxy
