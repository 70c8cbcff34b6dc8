import CsmProxy.Observe.Ends

/-!
# What a match rests on

An absent heartbeat is read as no generation, an empty activity and page `0`. The first two
cannot be waited for, page `0` can: a call that waits for it is matched before there is any
heartbeat. `matchNeedsEvidence_iff` says that this is the only match without evidence.
-/

namespace CsmProxy

open Foundations

def isLog (msg : SimToServer) : Bool :=
  match msg.payload with
  | some (.log _) => true
  | _ => false

theorem logText_of_not_log {msg : SimToServer} (h : isLog msg = false) : logText msg = [] := by
  cases hpayload : msg.payload with
  | none => rw [logText, hpayload]
  | some payload =>
    cases payload with
    | log log =>
      rw [isLog, hpayload] at h
      cases h
    | _ => rw [logText, hpayload]

/-- Without a heartbeat and a log line the only condition that holds is page `0`. -/
theorem ObserveSpec.met_iff_of_silent {spec : ObserveSpec} {events : List SimToServer}
    (hsilent : ∀ event ∈ events, isLog event = false) (current : Option UInt64) :
    spec.Met current events {} ↔ spec.untilProgressPage = some 0 := by
  have hempty : ∀ event ∈ events, ∀ needle : List Char, needle <:+: logText event → needle = [] := by
    intro event hmem needle hocc
    rw [logText_of_not_log (hsilent event hmem)] at hocc
    exact List.infix_nil.mp hocc
  constructor
  · intro hmet
    cases hmet with
    | log hset hne hmem hocc =>
      exact absurd (String.toList_eq_nil_iff.mp (hempty _ hmem _ hocc)) hne
    | generation hset hread => cases hread
    | activity hset hne hread => exact absurd hread.symm hne
    | entering hset hne hmem hocc =>
      have hnil := String.toList_eq_nil_iff.mp (hempty _ hmem _ hocc)
      simp at hnil
    | page hset hread =>
      rw [hset, ← hread]
    | saved hset hmem hocc =>
      exact absurd (hempty _ hmem _ hocc) (by decide)
  · intro hset
    exact .page hset rfl

/-- No heartbeat of `id` is stored on `h`. -/
def NoHeartbeat (id : String) (h : Host) : Prop :=
  ∀ inst, h.instances.inner.lookup id = some inst → inst.lastHeartbeat = none

theorem NoHeartbeat.ui {id : String} {h : Host} (hn : NoHeartbeat id h) :
    heartbeatUi h.instances id = {} := by
  unfold heartbeatUi InstanceMap.get
  cases hid : h.instances.inner.lookup id with
  | none => rfl
  | some inst =>
    have hnone := hn inst hid
    simp [hnone]

/-- The turns have read no heartbeat. -/
structure Turns.Silent (id : String) (r : Turns) : Prop where
  turns : ∀ t ∈ r.turns, t.ui = {}
  start : (heartbeatUi r.start.instances id) = {}

namespace ObserveCall

variable {me : Nat} {instanceId : Option String} {id : String} {spec : ObserveSpec}
  {see : Nat → Host}

theorem silent_modifyHead {r : Turns} (hr : r.Silent id) {f : Turn → Turn}
    (hf : ∀ t, t.ui = {} → (f t).ui = {}) :
    Turns.Silent id { r with turns := r.turns.modifyHead f } := by
  refine ⟨?_, hr.start⟩
  obtain ⟨turns, start⟩ := r
  cases turns with
  | nil => exact hr.turns
  | cons t earlier =>
    obtain ⟨ht, hrest⟩ := List.forall_mem_cons.mp hr.turns
    exact List.forall_mem_cons.mpr ⟨hf t ht, hrest⟩

theorem Follows.silent_note {c : ObserveCall} {r : Turns} {h : Host} (hf : Follows spec id c r)
    (hr : r.Silent id) (hn : NoHeartbeat id h) : (r.note h c).Silent id := by
  unfold Turns.note
  split
  · exact ⟨List.forall_mem_cons.mpr ⟨rfl, hr.turns⟩, hr.start⟩
  · split
    · split
      · exact silent_modifyHead hr fun t ht => ht
      · exact hr
    · exact hr
  · exact ⟨hr.turns, hn.ui⟩
  · rename_i hpc
    have hstage := hf.stage
    unfold Stage at hstage
    rw [hpc] at hstage
    have hid := (hf.polled hstage.1).1
    exact silent_modifyHead hr fun t ht => by rw [hid]; exact hn.ui
  · exact silent_modifyHead hr fun t ht => ht
  · exact hr

theorem silent_follow (own : ∀ n, OwnEntry id (see n)) (named : Names see instanceId id)
    (hn : ∀ n, NoHeartbeat id (see n)) (n : Nat) :
    (follow me see (start instanceId (some spec)) n).2.Silent id := by
  induction n with
  | zero => exact ⟨fun t ht => absurd ht List.not_mem_nil, rfl⟩
  | succ n ih => exact (follows_of_ownEntry own named n).silent_note ih (hn n)

end ObserveCall

/-- **A match needs evidence.** A call that waits, on hosts without a heartbeat of its
instance, and that has drained no log line: it is not matched if and only if it does not
wait for page `0`. -/
theorem matchNeedsEvidence_iff {me : Nat} {instanceId : Option String} {id : String}
    {spec : ObserveSpec} {see : Nat → Host} (heffective : spec.Effective)
    (own : ∀ n, OwnEntry id (see n)) (named : Names see instanceId id)
    (hn : ∀ n, NoHeartbeat id (see n)) {n : Nat} {reply : ObserveReply}
    (hpc : (ObserveCall.follow me see (.start instanceId (some spec)) n).1.pc =
      .returned (.ok reply)) (hsilent : ∀ event ∈ reply.events, isLog event = false) :
    reply.matched ≠ some true ↔ spec.untilProgressPage ≠ some 0 := by
  have hturns : (ObserveCall.follow me see (.start instanceId (some spec)) n).2.Silent id :=
    ObserveCall.silent_follow own named hn n
  have hends : EndsCorrectly spec id
      (ObserveCall.follow me see (.start instanceId (some spec)) n).2 reply :=
    ObserveCall.endsCorrectly_of_returned own named hpc
  rw [ne_eq, ne_eq, not_iff_not, hends.matched]
  constructor
  · rintro ⟨-, t, earlier, ht, hmet⟩
    have hui : t.ui = {} := hturns.turns t (ht ▸ List.mem_cons_self)
    rw [hui] at hmet
    exact (ObserveSpec.met_iff_of_silent hsilent _).mp hmet
  · intro hpage
    have hne : (ObserveCall.follow me see (.start instanceId (some spec)) n).2.turns ≠ [] := by
      intro hnil
      have hlast := hends.endsHere
      rw [hnil] at hlast
      exact hlast
    obtain ⟨t, earlier, ht⟩ := List.exists_cons_of_ne_nil hne
    refine ⟨heffective, t, earlier, ht, ?_⟩
    have hui : t.ui = {} := hturns.turns t (ht ▸ List.mem_cons_self)
    rw [hui]
    exact (ObserveSpec.met_iff_of_silent hsilent _).mpr hpage

/-! ## Two calls -/

/-- The hosts of a call on which nothing arrives. -/
def idle : Nat → Host := fun n => idleHost (millis (25 * n))

theorem ownEntry_idle (n : Nat) : OwnEntry "a" (idle n) :=
  ((schedule_idleHost 0 {}).connected n).ownEntry

theorem noHeartbeat_idle (n : Nat) : NoHeartbeat "a" (idle n) := by
  intro inst hid
  have hentry : (idle n).instances.inner.lookup "a" =
      some (InstanceMap.newInstance 1 { instanceId := "a" } 4 (.new 4)) := rfl
  rw [hentry] at hid
  cases hid
  rfl

/-- A call that looks once for the home screen. -/
def onceForHome : ObserveSpec := { waitMs := some 0, untilActivity := some "Home" }

/-- A call that looks once for page `0`. -/
def onceForPage : ObserveSpec := { waitMs := some 0, untilProgressPage := some 0 }

theorem matchNeedsEvidence_home :
    (some false : Option Bool) ≠ some true ↔ onceForHome.untilProgressPage ≠ some 0 := by
  have hpc : (ObserveCall.follow 0 idle (.start (some "a") (some onceForHome)) 7).1.pc =
      .returned (.ok ⟨"a", [], {}, some false, some true⟩) := rfl
  have heffective : onceForHome.Effective := .inr (.inr (.inl ⟨"Home", rfl, by decide⟩))
  have hsilent : ∀ event ∈ ([] : List SimToServer), isLog event = false := by decide
  exact matchNeedsEvidence_iff heffective ownEntry_idle (.inl rfl) noHeartbeat_idle hpc hsilent

/-- The wait for page `0` is matched without a heartbeat. -/
theorem not_matchNeedsEvidence_page :
    ¬ ∀ me instanceId id spec see n reply, ObserveSpec.Effective spec →
      (∀ n, OwnEntry id (see n)) → Names see instanceId id → (∀ n, NoHeartbeat id (see n)) →
      (ObserveCall.follow me see (.start instanceId (some spec)) n).1.pc = .returned (.ok reply) →
      (∀ event ∈ reply.events, isLog event = false) → reply.matched ≠ some true := by
  intro hall
  have hpc : (ObserveCall.follow 0 idle (.start (some "a") (some onceForPage)) 7).1.pc =
      .returned (.ok ⟨"a", [], {}, some true, some false⟩) := rfl
  have heffective : onceForPage.Effective := .inr (.inr (.inr ⟨0, rfl⟩))
  have hmatched := hall 0 (some "a") "a" onceForPage idle 7 _ heffective ownEntry_idle (.inl rfl)
    noHeartbeat_idle hpc (by decide)
  exact hmatched rfl

end CsmProxy
