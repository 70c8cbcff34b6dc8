import CsmProxy.Mcp.Tools

/-!
# Tools that fail before they send

A tool checks its parameters, resolves the instance, registers a waiter when it waits,
and only then puts its envelope on the outbound queue. `NoTrace` says what a failure
up to that point leaves: the map as it was, but for the corr counter. There is one
lemma for each function that the tools share; `noTrace_of_error` is read off them.
-/

namespace CsmProxy

open Foundations

/-- `m'` is `m` with at most a corr used up. The table of entries is the same one: no
register, heartbeat, queue or view has changed. No waiter is new; and when the corr that
was used up had no waiter before, no waiter is gone either. -/
structure NoTrace (m m' : InstanceMap) : Prop where
  inner : m'.inner = m.inner
  defaultInstance : m'.defaultInstance = m.defaultInstance
  nextToken : m'.nextToken = m.nextToken
  nextCorr : m'.nextCorr = m.nextCorr ∨ m'.nextCorr = m.nextCorr + 1
  waiters : ∀ corr, m'.waiters.lookup corr = m.waiters.lookup corr ∨
    corr = m.nextCorr ∧ m'.waiters.lookup corr = none
  waiterInstance : ∀ corr, m'.waiterInstance.lookup corr = m.waiterInstance.lookup corr ∨
    corr = m.nextCorr ∧ m'.waiterInstance.lookup corr = none

namespace NoTrace

theorem refl (m : InstanceMap) : NoTrace m m :=
  ⟨rfl, rfl, rfl, Or.inl rfl, fun _ => Or.inl rfl, fun _ => Or.inl rfl⟩

theorem takeCorr (m : InstanceMap) : NoTrace m m.takeCorr.2 :=
  ⟨rfl, rfl, rfl, Or.inr rfl, fun _ => Or.inl rfl, fun _ => Or.inl rfl⟩

/-- A waiter that is registered under a new corr and taken off again. -/
theorem takeWaiter_registerWaiter (m : InstanceMap) (id : String) (kind : WaitKind) (tx : Nat) :
    NoTrace m ((m.takeCorr.2.registerWaiter id m.nextCorr kind tx).takeWaiter m.nextCorr) := by
  refine ⟨rfl, rfl, rfl, Or.inr rfl, fun corr => ?_, fun corr => ?_⟩
  · change Finmap.lookup corr ((m.waiters.insert m.nextCorr (kind, tx)).erase m.nextCorr) = _ ∨ _ ∧
      Finmap.lookup corr ((m.waiters.insert m.nextCorr (kind, tx)).erase m.nextCorr) = _
    rw [HashMap.lookup_erase_ite, HashMap.lookup_insert_ite]
    by_cases hc : corr = m.nextCorr
    · exact Or.inr ⟨hc, if_pos hc⟩
    · exact Or.inl (by rw [if_neg hc, if_neg hc])
  · change Finmap.lookup corr ((m.waiterInstance.insert m.nextCorr id).erase m.nextCorr) = _ ∨ _ ∧
      Finmap.lookup corr ((m.waiterInstance.insert m.nextCorr id).erase m.nextCorr) = _
    rw [HashMap.lookup_erase_ite, HashMap.lookup_insert_ite]
    by_cases hc : corr = m.nextCorr
    · exact Or.inr ⟨hc, if_pos hc⟩
    · exact Or.inl (by rw [if_neg hc, if_neg hc])

end NoTrace

/-! ## The shared functions -/

/-- A call that was never sent returns at once, or takes its waiter off again. -/
theorem InstanceMap.sendAndWaitFor_error {m m' : InstanceMap} {id : String} {msg : ServerToSim}
    {timeout tx : Nat} {kind : WaitKind} {wait : Wait} {err : WaitError}
    (h : m.sendAndWaitFor id msg timeout kind tx wait = (.error err, m'))
    (herr : (ToolError.ofWait err).beforeSending = true) :
    m' = m ∨ m' = (m.registerWaiter id msg.corr kind tx).takeWaiter msg.corr := by
  unfold sendAndWaitFor at h
  split at h
  · exact Or.inl (Prod.mk.inj h).2.symm
  · simp only at h
    split at h
    · exact Or.inr (Prod.mk.inj h).2.symm
    · exact Or.inr (Prod.mk.inj h).2.symm
    · -- the request was sent: the error is one of the wait
      split at h
      · cases h
      · obtain ⟨he, -⟩ := Prod.mk.inj h
        cases he
        cases herr
      · obtain ⟨he, -⟩ := Prod.mk.inj h
        cases he
        cases herr

namespace McpServer

variable {m m' : InstanceMap} {instanceId : Option String} {err : ToolError}

theorem enqueue_error {ackRequested : Bool} {payload : ServerPayload}
    (h : enqueue m instanceId ackRequested payload = (.error err, m')) : NoTrace m m' := by
  unfold enqueue at h
  split at h
  · obtain ⟨-, rfl⟩ := Prod.mk.inj h
    exact .refl m
  · simp only at h
    split at h
    · obtain ⟨-, rfl⟩ := Prod.mk.inj h
      exact .takeCorr m
    · cases h

theorem enqueueWait_error {ackRequested : Bool} {payload : ServerPayload} {kind : WaitKind}
    {timeout tx : Nat} {wait : Wait}
    (h : enqueueWait m instanceId ackRequested payload kind timeout tx wait = (.error err, m'))
    (herr : err.beforeSending = true) : NoTrace m m' := by
  unfold enqueueWait at h
  split at h
  · obtain ⟨-, rfl⟩ := Prod.mk.inj h
    exact .refl m
  · simp only at h
    split at h
    · rename_i err' m₁ hsend
      obtain ⟨he, rfl⟩ := Prod.mk.inj h
      cases he
      rcases InstanceMap.sendAndWaitFor_error hsend herr with rfl | rfl
      · exact .takeCorr m
      · exact .takeWaiter_registerWaiter m ..
    · cases h

/-- The reply to an inject is no error of the kinds that come before sending. -/
theorem injectReply_error {id : String} {corr : UInt64} {reply : SimToServer}
    (h : injectReply m id corr reply = .error err) : err.beforeSending = false := by
  unfold injectReply at h
  split at h
  · cases h
  · split at h
    · cases h
    · cases h; rfl
  · cases h; rfl

theorem snapshotReply_error {id : String} {corr : UInt64} {reply : SimToServer}
    (h : snapshotReply id corr reply = .error err) : err.beforeSending = false := by
  unfold snapshotReply at h
  split at h
  · cases h
  · cases h; rfl
  · cases h; rfl

theorem inject_error {wait : Bool} {waitMode : Option String} {waitMs : Option UInt32}
    {payload : ServerPayload} {tx : Nat} {others : Wait}
    (h : inject m instanceId wait waitMode waitMs payload tx others = (.error err, m'))
    (herr : err.beforeSending = true) : NoTrace m m' := by
  unfold inject at h
  split at h
  · exact enqueue_error h
  · split at h
    · obtain ⟨-, rfl⟩ := Prod.mk.inj h
      exact .refl m
    · simp only at h
      split at h
      · rename_i err' m₁ hwait
        obtain ⟨he, rfl⟩ := Prod.mk.inj h
        cases he
        exact enqueueWait_error hwait herr
      · obtain ⟨he, -⟩ := Prod.mk.inj h
        exact absurd (injectReply_error he) (by simp [herr])

theorem injectTouch_error {kind x y : UInt32} {wait : Bool} {waitMode space : Option String}
    {waitMs : Option UInt32} {tx : Nat} {others : Wait}
    (h : injectTouch m instanceId kind x y wait waitMode space waitMs tx others = (.error err, m'))
    (herr : err.beforeSending = true) : NoTrace m m' := by
  unfold injectTouch at h
  split at h
  · obtain ⟨-, rfl⟩ := Prod.mk.inj h
    exact .refl m
  · exact inject_error h herr

theorem injectSwipe_error {startX startY endX endY durationMs : UInt32} {wait : Bool}
    {waitMode space : Option String} {waitMs : Option UInt32} {tx : Nat} {others : Wait}
    (h : injectSwipe m instanceId startX startY endX endY durationMs wait waitMode space waitMs tx
      others = (.error err, m'))
    (herr : err.beforeSending = true) : NoTrace m m' := by
  unfold injectSwipe at h
  split at h
  · obtain ⟨-, rfl⟩ := Prod.mk.inj h
    exact .refl m
  · exact inject_error h herr

theorem requestSnapshot_error {region : Bool} {x y width height format : UInt32} {wait : Bool}
    {tx : Nat} {others : Wait}
    (h : requestSnapshot m instanceId region x y width height format wait tx others =
      (.error err, m'))
    (herr : err.beforeSending = true) : NoTrace m m' := by
  unfold requestSnapshot at h
  simp only at h
  split at h
  · exact enqueue_error h
  · split at h
    · rename_i err' m₁ hwait
      obtain ⟨he, rfl⟩ := Prod.mk.inj h
      cases he
      exact enqueueWait_error hwait herr
    · obtain ⟨he, -⟩ := Prod.mk.inj h
      exact absurd (snapshotReply_error he) (by simp [herr])

/-- The view is stored only once the envelope is queued. -/
theorem setSessionView_error {paths excludeLogComponents : List String}
    (h : setSessionView m instanceId paths excludeLogComponents = (.error err, m')) :
    NoTrace m m' := by
  unfold setSessionView at h
  split at h
  · obtain ⟨-, rfl⟩ := Prod.mk.inj h
    exact .refl m
  · simp only at h
    split at h
    · rename_i err' m₁ henqueue
      obtain ⟨-, rfl⟩ := Prod.mk.inj h
      exact enqueue_error henqueue
    · cases h

end McpServer

/-- **No trace.** From every map and with every parameter, a tool that fails with an error
from before its envelope was queued leaves the map as it was, but for the corr counter. -/
theorem noTrace_of_error {m m' : InstanceMap} {call : ToolCall} {tx : Nat} {others : Wait}
    {e : ToolError} (h : call.run m tx others = (.error e, m'))
    (herr : e.beforeSending = true) : NoTrace m m' := by
  cases call with
  | injectTouch => exact McpServer.injectTouch_error h herr
  | injectKey => exact McpServer.inject_error h herr
  | injectHome => exact McpServer.inject_error h herr
  | injectSwipe => exact McpServer.injectSwipe_error h herr
  | setInjectEnabled => exact McpServer.enqueue_error h
  | requestSnapshot => exact McpServer.requestSnapshot_error h herr
  | setSessionView => exact McpServer.setSessionView_error h
  | shutdownInstance => exact McpServer.enqueue_error h

/-- An outbound channel for one envelope, which it holds. -/
def fullOutbound : Outbound where
  queued := [{ corr := 1, payload := some .shutdown }]
  cap := 1
  closed := false
  bounded := by decide

/-- A connected instance `a` whose outbound channel is full. -/
def fullMap : InstanceMap where
  inner := Finmap.singleton "a" (InstanceMap.newInstance 1 { instanceId := "a" } 4 fullOutbound)
  nextToken := 2
  nextCorr := 2

/-- A waiting paint inject into a full outbound channel. -/
theorem noTrace_of_error_full :
    ((ToolCall.injectKey (some "a") "BACK" 0 true none none).run fullMap 0
        fun _ m => (m, .elapsed)).1 = .error .queueFull ∧
      NoTrace fullMap ((ToolCall.injectKey (some "a") "BACK" 0 true none none).run fullMap 0
        fun _ m => (m, .elapsed)).2 :=
  ⟨rfl, noTrace_of_error (e := .queueFull) (Prod.ext (by rfl) rfl) rfl⟩

end CsmProxy
