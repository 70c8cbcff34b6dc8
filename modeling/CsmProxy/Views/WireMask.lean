import CsmProxy.Mcp.Tools
import CsmProxy.Views.WireFilter
import CsmProxy.Waiters.Steps

/-!
# Views and waiting tools

A tool that waits for a reply needs the simulator to send it. The mask that goes over the
wire is the caller's mask with `heartbeat` added, so a mask that does not name the
replies of a tool silences them (`not_neverStarves_log`), and `neverStarves_iff` says that
this is the only way: the tool is served exactly when the mask is empty or names all its
replies.
-/

namespace CsmProxy

/-- The tools that wait for a reply. -/
inductive WaitingTool where
  | injectPaint
  | injectAck
  | requestSnapshot
deriving DecidableEq, Repr

namespace WaitingTool

/-- What completes the tool's waiter. -/
def kind : WaitingTool → WaitKind
  | .injectPaint => .uiResult
  | .injectAck => .any
  | .requestSnapshot => .snapshot

/-- The names of the reply payloads that can complete the tool's waiter. -/
def replyNames : WaitingTool → List String
  | .injectPaint => ["ui_result", "input_ack"]
  | .injectAck => ["input_ack", "ui_result", "snapshot", "snapshot_error"]
  | .requestSnapshot => ["snapshot", "snapshot_error"]

end WaitingTool

example : injectWaitKind none = .ok WaitingTool.injectPaint.kind := by rfl

example : injectWaitKind (some "ack") = .ok WaitingTool.injectAck.kind := by rfl

/-- The payloads that answer a request. -/
def isReply (msg : SimToServer) : Bool :=
  match msg.payload with
  | some (.inputAck _) | some (.uiResult _) | some (.snapshot _) | some (.snapshotError _) => true
  | _ => false

/-- The simulator's rule: it emits a payload exactly when the mask of the last
`SetSessionView` is empty or names it. -/
def simulatorEmits (wirePaths : List String) (msg : SimToServer) : Bool :=
  InstanceMap.inboundVisible wirePaths msg

/-- The messages of a stream that complete a waiter, when the stream is pushed for `via`. -/
def Host.completions (h : Host) (via : String) : List SimToServer → List SimToServer
  | [] => []
  | msg :: rest =>
    (if (h.instances.takeMatching msg).1.isSome then [msg] else []) ++
      (h.completeWaiter via msg).completions via rest

/-- The view `paths` leaves the tool its replies. -/
structure NeverStarves (paths : List String) (tool : WaitingTool) : Prop where
  /-- The wire mask lets every reply through that can complete the tool's waiter. -/
  emitted : ∀ msg, isReply msg = true → InstanceMap.waiterMatches tool.kind msg = true →
    simulatorEmits (wireSessionViewPaths paths) msg = true
  /-- The waiter of the tool is completed by the same message of what the simulator produces
  as it would be with an empty mask. -/
  completed : ∀ (h : Host) via corr tx (stream : List SimToServer),
    h.instances.waiters.lookup corr = some (tool.kind, tx) →
    (∀ msg ∈ stream, msg.corr = corr → isReply msg = true) →
      (h.completions via (stream.filter (simulatorEmits (wireSessionViewPaths paths)))).find?
          (fun msg => msg.corr = corr) =
        (h.completions via (stream.filter (simulatorEmits (wireSessionViewPaths [])))).find?
          fun msg => msg.corr = corr

/-! ## The mask -/

theorem inboundVisible_iff {paths : List String} {msg : SimToServer} {name : String}
    (h : InstanceMap.inboundPayloadName msg = some name) :
    InstanceMap.inboundVisible paths msg = true ↔ paths = [] ∨ name ∈ paths := by
  simp [InstanceMap.inboundVisible, h]

theorem isHeartbeat_of_isReply {msg : SimToServer} (h : isReply msg = true) :
    isHeartbeat msg = false := by
  obtain ⟨seq, corr, payload⟩ := msg
  rcases payload with _ | (_ | _ | _ | _ | _ | _ | _ | _ | _) <;> simp_all [isReply, isHeartbeat]

/-- The replies that can complete the tool's waiter, by name. -/
theorem WaitingTool.exists_replyName (tool : WaitingTool) {msg : SimToServer}
    (hreply : isReply msg = true) (hm : InstanceMap.waiterMatches tool.kind msg = true) :
    ∃ name ∈ tool.replyNames, InstanceMap.inboundPayloadName msg = some name := by
  obtain ⟨seq, corr, payload⟩ := msg
  cases tool <;> rcases payload with _ | (_ | _ | _ | _ | _ | _ | _ | _ | _) <;>
    simp_all [isReply, WaitingTool.kind, WaitingTool.replyNames, InstanceMap.waiterMatches,
      InstanceMap.inboundPayloadName]

/-- Every reply name of the tool is the name of such a reply. -/
theorem WaitingTool.exists_reply {tool : WaitingTool} {name : String}
    (h : name ∈ tool.replyNames) :
    ∃ msg, isReply msg = true ∧ InstanceMap.waiterMatches tool.kind msg = true ∧
      InstanceMap.inboundPayloadName msg = some name := by
  have hack : isReply { payload := some (.inputAck {}) } = true := rfl
  have hui : isReply { payload := some (.uiResult {}) } = true := rfl
  have hframe : isReply { payload := some (.snapshot {}) } = true := rfl
  have herr : isReply { payload := some (.snapshotError {}) } = true := rfl
  cases tool <;> simp only [replyNames, List.mem_cons, List.not_mem_nil, or_false] at h
  case injectPaint =>
    rcases h with rfl | rfl
    · exact ⟨_, hui, rfl, rfl⟩
    · exact ⟨_, hack, rfl, rfl⟩
  case injectAck =>
    rcases h with rfl | rfl | rfl | rfl
    · exact ⟨_, hack, rfl, rfl⟩
    · exact ⟨_, hui, rfl, rfl⟩
    · exact ⟨_, hframe, rfl, rfl⟩
    · exact ⟨_, herr, rfl, rfl⟩
  case requestSnapshot =>
    rcases h with rfl | rfl
    · exact ⟨_, hframe, rfl, rfl⟩
    · exact ⟨_, herr, rfl, rfl⟩

/-! ## Completing the waiter -/

theorem Host.lookup_completeWaiter (h : Host) (via : String) (msg : SimToServer) (corr : UInt64) :
    (h.completeWaiter via msg).instances.waiters.lookup corr =
      if (h.instances.takeMatching msg).1.isSome ∧ corr = msg.corr then none
      else h.instances.waiters.lookup corr := by
  have hlookup := h.instances.lookup_takeMatching msg corr
  unfold completeWaiter
  split <;> (rename_i htake; rw [htake] at hlookup ⊢; exact hlookup)

/-- Whether a message completes the waiter under its corr depends on that waiter only. -/
theorem InstanceMap.takeMatching_isSome {m : InstanceMap} {msg : SimToServer} :
    (m.takeMatching msg).1.isSome = true ↔ msg.corr ≠ 0 ∧
      ∃ waiter, m.waiters.lookup msg.corr = some waiter ∧ waiterMatches waiter.1 msg = true := by
  constructor
  · intro h
    obtain ⟨tx, htx⟩ := Option.isSome_iff_exists.mp h
    obtain ⟨hcorr, kind, hl, hm⟩ := takeMatching_fst htx
    exact ⟨hcorr, _, hl, hm⟩
  · rintro ⟨hcorr, ⟨kind, tx⟩, hl, hm⟩
    simp [takeMatching, hcorr, hl, hm]

/-- Leaving out messages that do not complete the waiter under `corr` does not change which
message completes it. The two hosts agree on that waiter. -/
theorem Host.find_completions_filter {emits : SimToServer → Bool} {via : String} {corr : UInt64}
    {kind : WaitKind} {tx : Nat} {stream : List SimToServer} {h₁ h₂ : Host}
    (h₁w : h₁.instances.waiters.lookup corr = some (kind, tx))
    (h₂w : h₂.instances.waiters.lookup corr = some (kind, tx))
    (hemits : ∀ msg ∈ stream, msg.corr = corr → InstanceMap.waiterMatches kind msg = true →
      emits msg = true) :
    (h₁.completions via (stream.filter emits)).find? (fun msg => msg.corr = corr) =
      (h₂.completions via stream).find? fun msg => msg.corr = corr := by
  induction stream generalizing h₁ h₂ with
  | nil => rfl
  | cons msg rest ih =>
    obtain ⟨hmsg, hrest⟩ := List.forall_mem_cons.mp hemits
    -- a message under another corr leaves the waiter alone, and so does one that does not match
    have hkeep : ∀ h : Host, h.instances.waiters.lookup corr = some (kind, tx) →
        ¬ (msg.corr = corr ∧ (h.instances.takeMatching msg).1.isSome = true) →
        (h.completeWaiter via msg).instances.waiters.lookup corr = some (kind, tx) ∧
          ∀ l, (h.completions via (msg :: l)).find? (fun msg => msg.corr = corr) =
            ((h.completeWaiter via msg).completions via l).find? fun msg => msg.corr = corr := by
      intro h hw hnot
      refine ⟨?_, fun l => ?_⟩
      · rw [lookup_completeWaiter, if_neg, hw]
        rintro ⟨htake, rfl⟩
        exact hnot ⟨rfl, htake⟩
      · rw [completions, List.find?_append]
        split
        · rename_i htake
          have hne : msg.corr ≠ corr := fun hc => hnot ⟨hc, htake⟩
          simp [hne]
        · simp
    have htakes : ∀ h : Host, h.instances.waiters.lookup corr = some (kind, tx) → msg.corr = corr →
        ((h.instances.takeMatching msg).1.isSome = true ↔
          msg.corr ≠ 0 ∧ InstanceMap.waiterMatches kind msg = true) := by
      rintro h hw rfl
      rw [InstanceMap.takeMatching_isSome, hw]
      simp
    by_cases hc : msg.corr = corr ∧ msg.corr ≠ 0 ∧ InstanceMap.waiterMatches kind msg = true
    · obtain ⟨hcorr, hzero, hm⟩ := hc
      have hfirst : ∀ (h : Host) l, h.instances.waiters.lookup corr = some (kind, tx) →
          (h.completions via (msg :: l)).find? (fun msg => msg.corr = corr) = some msg := by
        intro h l hw
        rw [completions, if_pos ((htakes h hw hcorr).mpr ⟨hzero, hm⟩), List.find?_append]
        simp [hcorr]
      rw [List.filter_cons_of_pos (hmsg hcorr hm), hfirst h₁ _ h₁w, hfirst h₂ _ h₂w]
    · have hnot : ∀ h : Host, h.instances.waiters.lookup corr = some (kind, tx) →
          ¬ (msg.corr = corr ∧ (h.instances.takeMatching msg).1.isSome = true) := by
        rintro h hw ⟨hcorr, htake⟩
        exact hc ⟨hcorr, (htakes h hw hcorr).mp htake⟩
      obtain ⟨h₂w', h₂c⟩ := hkeep h₂ h₂w (hnot h₂ h₂w)
      rw [h₂c, List.filter_cons]
      split
      · obtain ⟨h₁w', h₁c⟩ := hkeep h₁ h₁w (hnot h₁ h₁w)
        rw [h₁c]
        exact ih h₁w' h₂w' hrest
      · exact ih h₁w h₂w' hrest

/-! ## The result -/

/-- **Views and waiting tools.** A view leaves a waiting tool its replies if and only if its
mask is empty or names all of them. -/
theorem neverStarves_iff (paths : List String) (tool : WaitingTool) :
    NeverStarves paths tool ↔ paths = [] ∨ ∀ name ∈ tool.replyNames, name ∈ paths := by
  constructor
  · intro h
    by_contra hnot
    rw [not_or] at hnot
    obtain ⟨hne, hall⟩ := hnot
    push Not at hall
    obtain ⟨name, hname, hmissing⟩ := hall
    obtain ⟨msg, hreply, hm, hn⟩ := WaitingTool.exists_reply hname
    have hemit := h.emitted msg hreply hm
    rw [simulatorEmits, inboundVisible_wire (isHeartbeat_of_isReply hreply),
      inboundVisible_iff hn] at hemit
    exact hemit.elim hne hmissing
  · intro hpaths
    have hemitted : ∀ msg, isReply msg = true → InstanceMap.waiterMatches tool.kind msg = true →
        simulatorEmits (wireSessionViewPaths paths) msg = true := by
      intro msg hreply hm
      obtain ⟨name, hname, hn⟩ := tool.exists_replyName hreply hm
      rw [simulatorEmits, inboundVisible_wire (isHeartbeat_of_isReply hreply),
        inboundVisible_iff hn]
      exact hpaths.imp_right fun hall => hall name hname
    refine ⟨hemitted, fun h via corr tx stream hw hstream => ?_⟩
    have hsome : ∀ msg ∈ stream, msg.corr = corr → InstanceMap.waiterMatches tool.kind msg = true →
        simulatorEmits (wireSessionViewPaths paths) msg = true := fun msg hmem hcorr hm =>
      hemitted msg (hstream msg hmem hcorr) hm
    have hall : ∀ msg ∈ stream, msg.corr = corr → InstanceMap.waiterMatches tool.kind msg = true →
        simulatorEmits (wireSessionViewPaths []) msg = true := fun _ _ _ _ => rfl
    rw [Host.find_completions_filter hw hw hsome, Host.find_completions_filter hw hw hall]

/-- The mask `log` silences the frames that a waiting `request_snapshot` needs. -/
theorem not_neverStarves_log : ¬ NeverStarves ["log"] .requestSnapshot := by
  intro h
  have hemit := h.emitted { corr := 1, payload := some (.snapshot {}) } rfl rfl
  revert hemit
  decide

end CsmProxy
