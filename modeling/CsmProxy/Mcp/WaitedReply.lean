import CsmProxy.Mcp.Arrivals

/-!
# The reply that a waiting tool understands

`instances.rs` decides which envelope completes a waiter, and `mcp.rs` what a tool makes of
it. For a paint inject and for `request_snapshot` the two agree: `waitedReplies` says what
each returns, whatever arrives. For an inject with `wait_mode` `ack` they do not: its waiter
takes any envelope, and the tool understands an `InputAck` or a `UiResult`.
`decidedByAck_iff` says when such an inject is decided by its ack.
-/

namespace CsmProxy

open Foundations

/-- The request of a waiting tool goes out: the instance resolves to `id`, which is connected
and whose outbound queue takes the envelope. -/
structure RequestSent (m : InstanceMap) (instanceId : Option String) (ackRequested : Bool)
    (payload : ServerPayload) (id : String) : Prop where
  resolved : ∃ snap, McpServer.resolve m instanceId = .ok snap ∧ snap.register.instanceId = id
  queued : ∃ inst outbound, m.inner.lookup id = some inst ∧
    inst.outbound.trySend { corr := m.nextCorr, ackRequested, payload := some payload } =
      some outbound

/-- No waiter owns the channel `tx` yet. -/
def NewChannel (m : InstanceMap) (tx : Nat) : Prop :=
  ∀ corr kind, m.waiters.lookup corr ≠ some (kind, tx)

/-- The `UiResult`s, and the `InputAck`s that reject. -/
def decidesPaint (msg : SimToServer) : Bool :=
  match msg.payload with
  | some (.uiResult _) => true
  | some (.inputAck ack) => !ack.accepted
  | _ => false

/-- The `SnapshotFrame`s and the `SnapshotError`s. -/
def decidesSnapshot (msg : SimToServer) : Bool :=
  match msg.payload with
  | some (.snapshot _) => true
  | some (.snapshotError _) => true
  | _ => false

def isInputAck (msg : SimToServer) : Bool :=
  match msg.payload with
  | some (.inputAck _) => true
  | _ => false

/-- The message of a rejection. -/
def InputAck.rejection (ack : InputAck) : String :=
  if ack.reason.isEmpty then "inject rejected" else ack.reason

def SnapshotError.failure (error : SnapshotError) : String :=
  if error.message.isEmpty then "snapshot failed" else error.message

/-- What a paint inject returns, by the first envelope that decides it. -/
structure PaintOutcome (id : String) (corr : UInt64) (arrivals : List Arrival)
    (result : Except ToolError ToolReply) : Prop where
  painted : ∀ reply, result = .ok reply ↔ ∃ msg ui,
    Arrival.firstReply corr decidesPaint arrivals = some msg ∧
      msg.payload = some (.uiResult ui) ∧ reply = .painted ui id corr
  rejected : ∀ text, result = .error (.rejected text) ↔ ∃ msg ack,
    Arrival.firstReply corr decidesPaint arrivals = some msg ∧
      msg.payload = some (.inputAck ack) ∧ text = ack.rejection
  silence : result = .error .timeout ↔ Arrival.firstReply corr decidesPaint arrivals = none

/-- What a waiting `request_snapshot` returns, by the first envelope that decides it. -/
structure SnapshotOutcome (id : String) (corr : UInt64) (arrivals : List Arrival)
    (result : Except ToolError ToolReply) : Prop where
  image : ∀ reply, result = .ok reply ↔ ∃ msg frame,
    Arrival.firstReply corr decidesSnapshot arrivals = some msg ∧
      msg.payload = some (.snapshot frame) ∧ reply = .snapshot frame
        (if frame.mimeType.isEmpty then "image/png" else frame.mimeType) id corr
  failed : ∀ text, result = .error (.rejected text) ↔ ∃ msg error,
    Arrival.firstReply corr decidesSnapshot arrivals = some msg ∧
      msg.payload = some (.snapshotError error) ∧ text = error.failure
  silence : result = .error .timeout ↔ Arrival.firstReply corr decidesSnapshot arrivals = none

/-- The inject is decided by the first `InputAck` with its corr. -/
def DecidedByAck (id : String) (corr : UInt64) (arrivals : List Arrival)
    (result : Except ToolError ToolReply) : Prop :=
  match (Arrival.firstReply corr isInputAck arrivals).map SimToServer.payload with
  | some (some (.inputAck ack)) =>
    if ack.accepted then ∃ generation activity, result = .ok (.accepted id corr generation activity)
    else result = .error (.rejected ack.rejection)
  | _ => result = .error .timeout

/-! ## The reply that the call gets -/

section Calls

variable {m : InstanceMap} {instanceId : Option String} {ackRequested : Bool}
  {payload : ServerPayload} {id : String} {kind : WaitKind} {timeout tx : Nat}

/-- A waiting call gets the first envelope with its corr that its waiter accepts. -/
theorem InstanceMap.sendAndWaitFor_of_queued {inst : Instance} {msg : ServerToSim}
    {outbound : Outbound} (hcorr : msg.corr ≠ 0) (hnew : NewChannel m tx)
    (hid : m.inner.lookup id = some inst) (hqueue : inst.outbound.trySend msg = some outbound)
    (arrivals : List Arrival) :
    (m.sendAndWaitFor id msg timeout kind tx (Arrival.wait tx arrivals)).1 =
      (Arrival.firstReply msg.corr (waiterMatches kind) arrivals).elim (.error .timeout) .ok := by
  let registered := m.registerWaiter id msg.corr kind tx
  let sent : InstanceMap := { registered with
    inner := registered.inner.insert id { inst with outbound := outbound } }
  have hget : (m.get id).isNone = false := by
    rw [get, hid]
    rfl
  have htry : (m.registerWaiter id msg.corr kind tx).trySend id msg = .ok sent := by
    have hlookup : registered.inner.lookup id = some inst := hid
    rw [trySend, hlookup]
    dsimp only
    rw [hqueue]
  have hpending : Host.Pending msg.corr kind tx { instances := sent } := by
    have hwaiters : sent.waiters = m.waiters.insert msg.corr (kind, tx) := rfl
    refine ⟨?_, fun corr' kind' hl => ?_, rfl⟩
    · rw [hwaiters, HashMap.lookup_insert_ite, if_pos rfl]
    · rw [hwaiters, HashMap.lookup_insert_ite] at hl
      split at hl
      · assumption
      · exact absurd hl (hnew corr' kind')
  have houtcome := hpending.foldl hcorr arrivals
  rw [sendAndWaitFor, hget]
  simp only [Bool.false_eq_true, if_false, htry, Arrival.wait, houtcome]
  cases Arrival.firstReply msg.corr (waiterMatches kind) arrivals <;> rfl

/-- A request that does not go out fails. -/
theorem InstanceMap.sendAndWaitFor_queued_or (m : InstanceMap) (id : String) (msg : ServerToSim)
    (timeout : Nat) (kind : WaitKind) (tx : Nat) (wait : Wait) :
    (∃ inst outbound, m.inner.lookup id = some inst ∧
      inst.outbound.trySend msg = some outbound) ∨
    (m.sendAndWaitFor id msg timeout kind tx wait).1 = .error .unknownInstance ∨
    (m.sendAndWaitFor id msg timeout kind tx wait).1 = .error .queueFull := by
  cases hid : m.inner.lookup id with
  | none =>
    have hget : (m.get id).isNone = true := by
      rw [get, hid]
      rfl
    refine .inr (.inl ?_)
    rw [sendAndWaitFor, if_pos hget]
  | some inst =>
    have hget : (m.get id).isNone = false := by
      rw [get, hid]
      rfl
    cases hqueue : inst.outbound.trySend msg with
    | some outbound => exact .inl ⟨inst, outbound, rfl, hqueue⟩
    | none =>
      have htry : (m.registerWaiter id msg.corr kind tx).trySend id msg = .error .queueFull := by
        have hlookup : (m.registerWaiter id msg.corr kind tx).inner.lookup id = some inst := hid
        rw [trySend, hlookup]
        dsimp only
        rw [hqueue]
      refine .inr (.inr ?_)
      rw [sendAndWaitFor, hget]
      simp only [Bool.false_eq_true, if_false, htry]

namespace McpServer

theorem enqueueWait_of_sent (hcorr : m.nextCorr ≠ 0) (hnew : NewChannel m tx)
    (hsent : RequestSent m instanceId ackRequested payload id) (arrivals : List Arrival) :
    (enqueueWait m instanceId ackRequested payload kind timeout tx (Arrival.wait tx arrivals)).1 =
      (Arrival.firstReply m.nextCorr (InstanceMap.waiterMatches kind) arrivals).elim
        (.error .timeout) fun msg => .ok (id, m.nextCorr, msg) := by
  obtain ⟨⟨snap, hresolve, rfl⟩, inst, outbound, hid, hqueue⟩ := hsent
  have hnew' : NewChannel m.takeCorr.2 tx := hnew
  have hid' : m.takeCorr.2.inner.lookup snap.register.instanceId = some inst := hid
  have hcall : (m.takeCorr.2.sendAndWaitFor snap.register.instanceId
        { corr := m.takeCorr.1, ackRequested, payload := some payload } timeout kind tx
        (Arrival.wait tx arrivals)).1 =
      (Arrival.firstReply m.nextCorr (InstanceMap.waiterMatches kind) arrivals).elim
        (.error .timeout) .ok :=
    InstanceMap.sendAndWaitFor_of_queued hcorr hnew' hid' hqueue arrivals
  rw [enqueueWait, hresolve]
  dsimp only
  generalize m.takeCorr.2.sendAndWaitFor snap.register.instanceId _ timeout kind tx _ = r at hcall ⊢
  obtain ⟨result, after⟩ := r
  obtain rfl : result = _ := hcall
  cases Arrival.firstReply m.nextCorr (InstanceMap.waiterMatches kind) arrivals <;> rfl

theorem ofResolve_beforeSending {err : ToolError} (h : resolve m instanceId = .error err) :
    err.beforeSending = true := by
  unfold resolve at h
  cases ho : m.resolveOrDefault instanceId with
  | error cause =>
    rw [ho] at h
    cases h
    cases cause <;> rfl
  | ok snap =>
    rw [ho] at h
    cases h

/-- A request that does not go out fails with an error from before sending. -/
theorem requestSent_or_refused (m : InstanceMap) (instanceId : Option String)
    (ackRequested : Bool) (payload : ServerPayload) (kind : WaitKind) (timeout tx : Nat)
    (wait : Wait) :
    (∃ id, RequestSent m instanceId ackRequested payload id) ∨
      ∃ err, (enqueueWait m instanceId ackRequested payload kind timeout tx wait).1 = .error err ∧
        err.beforeSending = true := by
  rw [enqueueWait]
  cases hr : resolve m instanceId with
  | error err => exact .inr ⟨err, rfl, ofResolve_beforeSending hr⟩
  | ok snap =>
    dsimp only
    rcases m.takeCorr.2.sendAndWaitFor_queued_or snap.register.instanceId
        { corr := m.takeCorr.1, ackRequested, payload := some payload } timeout kind tx wait with
      ⟨inst, outbound, hid, hqueue⟩ | hcall
    · exact .inl ⟨_, ⟨snap, hr, rfl⟩, inst, outbound, hid, hqueue⟩
    · refine .inr ?_
      generalize m.takeCorr.2.sendAndWaitFor snap.register.instanceId _ timeout kind tx _ = r
        at hcall ⊢
      obtain ⟨result, after⟩ := r
      rcases hcall with rfl | rfl
      · exact ⟨.unknownInstance, rfl, rfl⟩
      · exact ⟨.queueFull, rfl, rfl⟩

variable {waitMode : Option String}

/-- What an inject makes of the envelope that its waiter accepts first. -/
theorem inject_of_sent (waitMs : Option UInt32) (hmode : injectWaitKind waitMode = .ok kind) (hcorr : m.nextCorr ≠ 0)
    (hnew : NewChannel m tx) (hsent : RequestSent m instanceId true payload id)
    (arrivals : List Arrival) :
    ∃ after, (inject m instanceId true waitMode waitMs payload tx (Arrival.wait tx arrivals)).1 =
      (Arrival.firstReply m.nextCorr (InstanceMap.waiterMatches kind) arrivals).elim
        (.error .timeout) (injectReply after id m.nextCorr) := by
  have hwait : (enqueueWait m instanceId true payload kind
        ((waitMs.map fun ms => ms.toNat * 1000000).getD replyTimeout) tx
        (Arrival.wait tx arrivals)).1 =
      (Arrival.firstReply m.nextCorr (InstanceMap.waiterMatches kind) arrivals).elim
        (.error .timeout) fun msg => .ok (id, m.nextCorr, msg) :=
    enqueueWait_of_sent hcorr hnew hsent arrivals
  rw [inject, hmode]
  simp only [Bool.not_true, Bool.false_eq_true, if_false]
  generalize enqueueWait m instanceId true payload kind _ tx _ = r at hwait ⊢
  obtain ⟨result, after⟩ := r
  obtain rfl : result = _ := hwait
  refine ⟨after, ?_⟩
  cases Arrival.firstReply m.nextCorr (InstanceMap.waiterMatches kind) arrivals <;> rfl

theorem inject_refused {waitMs : Option UInt32} {wait : Wait} {err : ToolError} (hmode : injectWaitKind waitMode = .ok kind)
    (h : (enqueueWait m instanceId true payload kind
      ((waitMs.map fun ms => ms.toNat * 1000000).getD replyTimeout) tx wait).1 = .error err) :
    (inject m instanceId true waitMode waitMs payload tx wait).1 = .error err := by
  rw [inject, hmode]
  simp only [Bool.not_true, Bool.false_eq_true, if_false]
  generalize enqueueWait m instanceId true payload kind _ tx _ = r at h ⊢
  obtain ⟨result, after⟩ := r
  obtain rfl : result = _ := h
  rfl

theorem requestSnapshot_of_sent {region : Bool} {x y width height format : UInt32}
    (hcorr : m.nextCorr ≠ 0) (hnew : NewChannel m tx)
    (hsent : RequestSent m instanceId false (.snapshotRequest region x y width height format) id)
    (arrivals : List Arrival) :
    (requestSnapshot m instanceId region x y width height format true tx
        (Arrival.wait tx arrivals)).1 =
      (Arrival.firstReply m.nextCorr (InstanceMap.waiterMatches .snapshot) arrivals).elim
        (.error .timeout) (snapshotReply id m.nextCorr) := by
  have hwait : (enqueueWait m instanceId false (.snapshotRequest region x y width height format)
        .snapshot replyTimeout tx (Arrival.wait tx arrivals)).1 =
      (Arrival.firstReply m.nextCorr (InstanceMap.waiterMatches .snapshot) arrivals).elim
        (.error .timeout) fun msg => .ok (id, m.nextCorr, msg) :=
    enqueueWait_of_sent hcorr hnew hsent arrivals
  rw [requestSnapshot]
  simp only [Bool.not_true, Bool.false_eq_true, if_false]
  generalize enqueueWait m instanceId false _ .snapshot _ tx _ = r at hwait ⊢
  obtain ⟨result, after⟩ := r
  obtain rfl : result = _ := hwait
  cases Arrival.firstReply m.nextCorr (InstanceMap.waiterMatches .snapshot) arrivals <;> rfl

theorem requestSnapshot_refused {region : Bool} {x y width height format : UInt32} {wait : Wait}
    {err : ToolError}
    (h : (enqueueWait m instanceId false (.snapshotRequest region x y width height format)
      .snapshot replyTimeout tx wait).1 = .error err) :
    (requestSnapshot m instanceId region x y width height format true tx wait).1 = .error err := by
  rw [requestSnapshot]
  simp only [Bool.not_true, Bool.false_eq_true, if_false]
  generalize enqueueWait m instanceId false _ .snapshot _ tx _ = r at h ⊢
  obtain ⟨result, after⟩ := r
  obtain rfl : result = _ := h
  rfl

end McpServer

end Calls

/-! ## Paint and snapshots -/

/-- The waiter of a paint inject accepts what the tool understands, and nothing else. -/
theorem waiterMatches_uiResult : InstanceMap.waiterMatches .uiResult = decidesPaint := by
  funext msg
  rfl

theorem waiterMatches_snapshot : InstanceMap.waiterMatches .snapshot = decidesSnapshot := by
  funext msg
  obtain ⟨seq, corr, payload⟩ := msg
  rcases payload with _ | (_ | _ | _ | _ | _ | _ | _ | _ | _) <;> rfl

/-- The first reply is one that is accepted. -/
theorem Arrival.firstReply_accepted {corr : UInt64} {accepts : SimToServer → Bool}
    {arrivals : List Arrival} {msg : SimToServer}
    (h : firstReply corr accepts arrivals = some msg) : accepts msg = true := by
  have hfound := List.find?_some h
  exact (Bool.and_eq_true_iff.mp hfound).2

/-- What an inject makes of an envelope that decides a paint. -/
theorem McpServer.injectReply_decided {msg : SimToServer} (h : decidesPaint msg = true)
    (m : InstanceMap) (id : String) (corr : UInt64) :
    (∃ ui, msg.payload = some (.uiResult ui) ∧
      injectReply m id corr msg = .ok (.painted ui id corr)) ∨
    ∃ ack, msg.payload = some (.inputAck ack) ∧
      injectReply m id corr msg = .error (.rejected ack.rejection) := by
  unfold decidesPaint at h
  cases hpayload : msg.payload with
  | none =>
    rw [hpayload] at h
    cases h
  | some payload =>
    rw [hpayload] at h
    cases payload with
    | uiResult ui => exact .inl ⟨ui, rfl, by rw [injectReply, hpayload]⟩
    | inputAck ack =>
      refine .inr ⟨ack, rfl, ?_⟩
      rw [injectReply, hpayload]
      dsimp only
      rw [if_neg (by simpa using h)]
      rfl
    | _ => cases h

theorem McpServer.snapshotReply_decided {msg : SimToServer} (h : decidesSnapshot msg = true)
    (id : String) (corr : UInt64) :
    (∃ frame, msg.payload = some (.snapshot frame) ∧
      snapshotReply id corr msg = .ok (.snapshot frame
        (if frame.mimeType.isEmpty then "image/png" else frame.mimeType) id corr)) ∨
    ∃ error, msg.payload = some (.snapshotError error) ∧
      snapshotReply id corr msg = .error (.rejected error.failure) := by
  unfold decidesSnapshot at h
  cases hpayload : msg.payload with
  | none =>
    rw [hpayload] at h
    cases h
  | some payload =>
    rw [hpayload] at h
    cases payload with
    | snapshot frame => exact .inl ⟨frame, rfl, by rw [snapshotReply, hpayload]⟩
    | snapshotError error =>
      refine .inr ⟨error, rfl, ?_⟩
      rw [snapshotReply, hpayload]
      rfl
    | _ => cases h

/-- A paint inject that goes out. -/
theorem paintOutcome_of_sent {m : InstanceMap} {instanceId waitMode : Option String}
    {waitMs : Option UInt32} {payload : ServerPayload} {id : String} {tx : Nat}
    (hmode : injectWaitKind waitMode = .ok .uiResult) (hcorr : m.nextCorr ≠ 0)
    (hnew : NewChannel m tx) (hsent : RequestSent m instanceId true payload id)
    (arrivals : List Arrival) :
    PaintOutcome id m.nextCorr arrivals (McpServer.inject m instanceId true waitMode waitMs payload
      tx (Arrival.wait tx arrivals)).1 := by
  obtain ⟨after, hresult⟩ := McpServer.inject_of_sent waitMs hmode hcorr hnew hsent arrivals
  rw [hresult, waiterMatches_uiResult]
  cases hfirst : Arrival.firstReply m.nextCorr decidesPaint arrivals with
  | none => constructor <;> simp [hfirst]
  | some msg =>
    rcases McpServer.injectReply_decided (Arrival.firstReply_accepted hfirst) after id m.nextCorr with
      ⟨ui, hpayload, hreply⟩ | ⟨ack, hpayload, hreply⟩
    · constructor <;> simp [hfirst, hpayload, hreply, eq_comm]
    · constructor <;> simp [hfirst, hpayload, hreply, eq_comm]

theorem snapshotOutcome_of_sent {m : InstanceMap} {instanceId : Option String} {id : String}
    {tx : Nat} {region : Bool} {x y width height format : UInt32} (hcorr : m.nextCorr ≠ 0)
    (hnew : NewChannel m tx)
    (hsent : RequestSent m instanceId false (.snapshotRequest region x y width height format) id)
    (arrivals : List Arrival) :
    SnapshotOutcome id m.nextCorr arrivals (McpServer.requestSnapshot m instanceId region x y width
      height format true tx (Arrival.wait tx arrivals)).1 := by
  rw [McpServer.requestSnapshot_of_sent hcorr hnew hsent arrivals, waiterMatches_snapshot]
  cases hfirst : Arrival.firstReply m.nextCorr decidesSnapshot arrivals with
  | none => constructor <;> simp [hfirst]
  | some msg =>
    rcases McpServer.snapshotReply_decided (Arrival.firstReply_accepted hfirst) id m.nextCorr with
      ⟨frame, hpayload, hreply⟩ | ⟨error, hpayload, hreply⟩
    · refine ⟨fun reply => ?_, ?_, ?_⟩
      · rw [Option.elim_some, hreply]
        constructor
        · rintro ⟨⟩
          exact ⟨msg, frame, hfirst, hpayload, rfl⟩
        · rintro ⟨msg', frame', hfirst', hpayload', rfl⟩
          cases hfirst.symm.trans hfirst'
          cases hpayload.symm.trans hpayload'
          rfl
      all_goals simp [hfirst, hpayload, hreply]
    · refine ⟨?_, fun text => ?_, ?_⟩
      · simp [hfirst, hpayload, hreply]
      · simpa [hfirst, hpayload, hreply] using eq_comm
      · simp [hfirst, hreply]

/-- The outcomes leave no room for an unexpected reply. -/
theorem PaintOutcome.expected {id : String} {corr : UInt64} {arrivals : List Arrival}
    {result : Except ToolError ToolReply} (h : PaintOutcome id corr arrivals result) :
    result ≠ .error .unexpectedReply := by
  rintro rfl
  cases hfirst : Arrival.firstReply corr decidesPaint arrivals with
  | none => exact absurd (h.silence.mpr hfirst) (by simp)
  | some msg =>
    rcases McpServer.injectReply_decided (Arrival.firstReply_accepted hfirst) .new id corr with
      ⟨ui, hpayload, -⟩ | ⟨ack, hpayload, -⟩
    · exact absurd ((h.painted _).mpr ⟨msg, ui, hfirst, hpayload, rfl⟩) (by simp)
    · exact absurd ((h.rejected _).mpr ⟨msg, ack, hfirst, hpayload, rfl⟩) (by simp)

theorem SnapshotOutcome.expected {id : String} {corr : UInt64} {arrivals : List Arrival}
    {result : Except ToolError ToolReply} (h : SnapshotOutcome id corr arrivals result) :
    result ≠ .error .unexpectedReply := by
  rintro rfl
  cases hfirst : Arrival.firstReply corr decidesSnapshot arrivals with
  | none => exact absurd (h.silence.mpr hfirst) (by simp)
  | some msg =>
    rcases McpServer.snapshotReply_decided (Arrival.firstReply_accepted hfirst) id corr with
      ⟨frame, hpayload, -⟩ | ⟨error, hpayload, -⟩
    · exact absurd ((h.image _).mpr ⟨msg, frame, hfirst, hpayload, rfl⟩) (by simp)
    · exact absurd ((h.failed _).mpr ⟨msg, error, hfirst, hpayload, rfl⟩) (by simp)

/-- What a waiting tool returns: never an unexpected reply, and if its request went out, what
the first envelope that decides it says. -/
structure WaitedReplies (m : InstanceMap) (tx : Nat) (arrivals : List Arrival) : Prop where
  paint : ∀ instanceId waitMode waitMs payload, waitMode = none ∨ waitMode = some "paint" →
    (McpServer.inject m instanceId true waitMode waitMs payload tx (Arrival.wait tx arrivals)).1 ≠
      .error .unexpectedReply ∧
    ∀ id, RequestSent m instanceId true payload id →
      PaintOutcome id m.nextCorr arrivals (McpServer.inject m instanceId true waitMode waitMs
        payload tx (Arrival.wait tx arrivals)).1
  snapshot : ∀ instanceId region x y width height format,
    (McpServer.requestSnapshot m instanceId region x y width height format true tx
      (Arrival.wait tx arrivals)).1 ≠ .error .unexpectedReply ∧
    ∀ id, RequestSent m instanceId false (.snapshotRequest region x y width height format) id →
      SnapshotOutcome id m.nextCorr arrivals (McpServer.requestSnapshot m instanceId region x y
        width height format true tx (Arrival.wait tx arrivals)).1

theorem ToolError.ne_unexpected {err : ToolError} (h : err.beforeSending = true) :
    (.error err : Except ToolError ToolReply) ≠ .error .unexpectedReply := by
  rintro ⟨⟩
  cases h

/-- **Filter and handler agree.** Whatever envelopes arrive between the request and its
timeout, a paint inject and a waiting `request_snapshot` understand the envelope they get. -/
theorem waitedReplies (m : InstanceMap) (tx : Nat) (arrivals : List Arrival)
    (hcorr : m.nextCorr ≠ 0) (hnew : NewChannel m tx) : WaitedReplies m tx arrivals := by
  constructor
  · intro instanceId waitMode waitMs payload hpaint
    have hmode : injectWaitKind waitMode = .ok .uiResult := by
      rcases hpaint with rfl | rfl <;> rfl
    have hout : ∀ id, RequestSent m instanceId true payload id → PaintOutcome id m.nextCorr arrivals
        (McpServer.inject m instanceId true waitMode waitMs payload tx
          (Arrival.wait tx arrivals)).1 := fun id hsent =>
      paintOutcome_of_sent hmode hcorr hnew hsent arrivals
    refine ⟨?_, hout⟩
    rcases McpServer.requestSent_or_refused m instanceId true payload .uiResult
        ((waitMs.map fun ms => ms.toNat * 1000000).getD replyTimeout) tx
        (Arrival.wait tx arrivals) with ⟨id, hsent⟩ | ⟨err, herr, hbefore⟩
    · exact (hout id hsent).expected
    · rw [McpServer.inject_refused hmode herr]
      exact ToolError.ne_unexpected hbefore
  · intro instanceId region x y width height format
    have hout : ∀ id, RequestSent m instanceId false
        (.snapshotRequest region x y width height format) id → SnapshotOutcome id m.nextCorr
          arrivals (McpServer.requestSnapshot m instanceId region x y width height format true tx
            (Arrival.wait tx arrivals)).1 := fun id hsent =>
      snapshotOutcome_of_sent hcorr hnew hsent arrivals
    refine ⟨?_, hout⟩
    rcases McpServer.requestSent_or_refused m instanceId false
        (.snapshotRequest region x y width height format) .snapshot replyTimeout tx
        (Arrival.wait tx arrivals) with ⟨id, hsent⟩ | ⟨err, herr, hbefore⟩
    · exact (hout id hsent).expected
    · rw [McpServer.requestSnapshot_refused herr]
      exact ToolError.ne_unexpected hbefore

/-- A connected instance `a` whose queues have room. -/
def roomyMap : InstanceMap :=
  { inner := Finmap.singleton "a" (InstanceMap.newInstance 1 { instanceId := "a" } 4 (.new 4)) }

theorem newChannel_roomyMap (tx : Nat) : NewChannel roomyMap tx := by
  intro corr kind
  rw [roomyMap, HashMap.lookup_empty]
  exact (Option.some_ne_none _).symm

/-- An accepted ack does not end the wait, the result behind it does. -/
theorem waitedReplies_painted :
    (McpServer.inject roomyMap (some "a") true none none (.injectHome 0) 0 (Arrival.wait 0
      [.push "a" { corr := 1, payload := some (.inputAck { accepted := true }) },
        .push "a" { corr := 1, payload := some (.uiResult { painted := true }) }])).1 =
        .ok (.painted { painted := true } "a" 1) ∧
      WaitedReplies roomyMap 0
        [.push "a" { corr := 1, payload := some (.inputAck { accepted := true }) },
          .push "a" { corr := 1, payload := some (.uiResult { painted := true }) }] :=
  ⟨by decide, waitedReplies roomyMap 0 _ (by decide) (newChannel_roomyMap 0)⟩

/-! ## Waiting for the ack -/

theorem Arrival.firstReply_of_any {corr : UInt64} {accepts : SimToServer → Bool}
    {arrivals : List Arrival} {msg : SimToServer}
    (h : firstReply corr (fun _ => true) arrivals = some msg) (hmsg : accepts msg = true) :
    firstReply corr accepts arrivals = some msg := by
  unfold firstReply at h ⊢
  obtain ⟨hcorr, before, after, heq, hbefore⟩ := List.find?_eq_some_iff_append.mp h
  refine List.find?_eq_some_iff_append.mpr ⟨?_, before, after, heq, fun other hother => ?_⟩
  · simpa [hmsg] using hcorr
  · have hno := hbefore other hother
    simp only [Bool.and_true, Bool.not_eq_true', decide_eq_false_iff_not] at hno
    simp [hno]

theorem Arrival.firstReply_none {corr : UInt64} {arrivals : List Arrival}
    (h : firstReply corr (fun _ => true) arrivals = none) (accepts : SimToServer → Bool) :
    firstReply corr accepts arrivals = none := by
  unfold firstReply at h ⊢
  rw [List.find?_eq_none] at h ⊢
  intro msg hmem hyes
  have hno := h msg hmem
  simp only [Bool.and_true, decide_eq_true_eq] at hno
  exact hno (of_decide_eq_true (Bool.and_eq_true_iff.mp hyes).1)

/-- What an inject makes of an ack. -/
theorem DecidedByAck.of_ack {id : String} {corr : UInt64} {arrivals : List Arrival}
    {msg : SimToServer} (hfirst : Arrival.firstReply corr isInputAck arrivals = some msg)
    (m : InstanceMap) : DecidedByAck id corr arrivals (McpServer.injectReply m id corr msg) := by
  have hack : isInputAck msg = true := Arrival.firstReply_accepted hfirst
  unfold isInputAck at hack
  split at hack
  · rename_i ack hpayload
    rw [DecidedByAck, McpServer.injectReply, hfirst, Option.map_some, hpayload]
    dsimp only
    by_cases haccepted : ack.accepted = true
    · rw [if_pos haccepted, if_pos haccepted]
      exact ⟨_, _, rfl⟩
    · rw [if_neg haccepted, if_neg haccepted]
      rfl
  · cases hack

/-- Nothing else looks like the decision of an ack. -/
theorem DecidedByAck.ack_of {id : String} {corr : UInt64} {arrivals : List Arrival}
    {msg : SimToServer} {m : InstanceMap}
    (h : DecidedByAck id corr arrivals (McpServer.injectReply m id corr msg)) :
    isInputAck msg = true := by
  obtain ⟨seq, corr', payload⟩ := msg
  unfold DecidedByAck at h
  split at h
  · split at h
    · obtain ⟨generation, activity, h⟩ := h
      rcases payload with _ | (_ | _ | _ | _ | _ | _ | _ | _ | _) <;>
        simp_all [isInputAck, McpServer.injectReply]
    · rcases payload with _ | (_ | _ | _ | _ | _ | _ | _ | _ | _) <;>
        simp_all [isInputAck, McpServer.injectReply]
  · rcases payload with _ | (_ | _ | _ | _ | _ | _ | _ | _ | _) <;>
      simp_all [isInputAck, McpServer.injectReply]

/-- **Waiting for the ack.** An inject with `wait_mode` `ack` that goes out is decided by the
first ack with its corr if and only if no other envelope with its corr arrives before. -/
theorem decidedByAck_iff {m : InstanceMap} {instanceId : Option String} {payload : ServerPayload}
    {id : String} {tx : Nat} (hcorr : m.nextCorr ≠ 0) (hnew : NewChannel m tx)
    (hsent : RequestSent m instanceId true payload id) (waitMs : Option UInt32)
    (arrivals : List Arrival) :
    DecidedByAck id m.nextCorr arrivals (McpServer.inject m instanceId true (some "ack") waitMs
        payload tx (Arrival.wait tx arrivals)).1 ↔
      ∀ msg, Arrival.firstReply m.nextCorr (fun _ => true) arrivals = some msg →
        isInputAck msg = true := by
  have hmode : injectWaitKind (some "ack") = .ok .any := by rfl
  have hany : InstanceMap.waiterMatches .any = fun _ => true := rfl
  obtain ⟨after, hresult⟩ := McpServer.inject_of_sent waitMs hmode hcorr hnew hsent arrivals
  rw [hresult, hany]
  cases hfirst : Arrival.firstReply m.nextCorr (fun _ => true) arrivals with
  | none =>
    refine iff_of_true ?_ (by simp)
    rw [DecidedByAck, Arrival.firstReply_none hfirst]
    rfl
  | some msg =>
    rw [Option.elim_some]
    constructor
    · rintro h _ ⟨⟩
      exact h.ack_of
    · intro h
      exact .of_ack (Arrival.firstReply_of_any hfirst (h msg rfl)) after

theorem requestSent_roomyMap (ackRequested : Bool) (payload : ServerPayload) :
    RequestSent roomyMap (some "a") ackRequested payload "a" where
  resolved := ⟨⟨1, { instanceId := "a" }, none⟩, rfl, rfl⟩
  queued := ⟨_, _, rfl, rfl⟩

/-- An envelope with the corr of the first request. -/
def answer (payload : SimPayload) : Arrival := .push "a" { corr := 1, payload := some payload }

/-- The ack comes first. -/
theorem decidedByAck_first :
    DecidedByAck "a" 1 [answer (.inputAck { accepted := true }), answer (.uiResult {})]
      (McpServer.inject roomyMap (some "a") true (some "ack") none (.injectHome 0) 0 (Arrival.wait 0
        [answer (.inputAck { accepted := true }), answer (.uiResult {})])).1 :=
  (decidedByAck_iff (by decide) (newChannel_roomyMap 0) (requestSent_roomyMap _ _) none _).mpr
    (by decide)

/-- An observed edge before the ack makes the accepted inject fail. -/
theorem not_decidedByAck_observed :
    (McpServer.inject roomyMap (some "a") true (some "ack") none (.injectHome 0) 0 (Arrival.wait 0
        [answer (.inputObserved {}), answer (.inputAck { accepted := true })])).1 =
      .error .unexpectedReply ∧
    ¬ ∀ m instanceId payload id tx waitMs arrivals, m.nextCorr ≠ 0 → NewChannel m tx →
      RequestSent m instanceId true payload id →
      DecidedByAck id m.nextCorr arrivals (McpServer.inject m instanceId true (some "ack") waitMs
        payload tx (Arrival.wait tx arrivals)).1 := by
  have hresult : (McpServer.inject roomyMap (some "a") true (some "ack") none (.injectHome 0) 0
      (Arrival.wait 0 [answer (.inputObserved {}), answer (.inputAck { accepted := true })])).1 =
      .error .unexpectedReply := by decide
  refine ⟨hresult, fun hall => ?_⟩
  have h := hall roomyMap (some "a") (.injectHome 0) "a" 0 none
    [answer (.inputObserved {}), answer (.inputAck { accepted := true })] (by decide)
    (newChannel_roomyMap 0) (requestSent_roomyMap _ _)
  rw [hresult] at h
  obtain ⟨generation, activity, h⟩ := h
  cases h

end CsmProxy
