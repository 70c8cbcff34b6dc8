import CsmProxy.Views.WireMask

/-!
# What arrives while a tool waits

Between its request and its timeout a waiting tool gives way to the other tasks. On a
session that stays connected they push envelopes and call the methods of the map that are
one section. `Arrival.wait` runs such calls one after the other, and
`McpServer.enqueueWait_of_sent` says which of the envelopes the tool gets: the first one
with its corr that the waiter accepts.
-/

namespace CsmProxy

open Foundations

/-- A call of the map that leaves the sessions where they are. -/
inductive Arrival where
  | push (via : String) (msg : SimToServer)
  | update (u : MapUpdate)
deriving DecidableEq

/-- How a wait ends, as its receiver sees it at the timeout. -/
def Oneshot.outcome : Oneshot → WaitOutcome
  | .waiting => .elapsed
  | .sent _ reply => .reply reply
  | .dropped => .senderDropped

namespace Arrival

/-- The host after the call. -/
def apply (h : Host) : Arrival → Host
  | .push via msg => h.pushInbound via msg
  | .update u => { h with instances := u.apply h.instances }

/-- The call as a task of the map: before it begins, and when it has returned. -/
def task : Arrival → Bool → MapCall
  | .push via msg, returned => .push via msg (if returned then none else some .complete)
  | .update u, returned => .update u returned

/-- The sections of an arrival compute `apply`. -/
theorem runsTo (me : Nat) (h : Host) (a : Arrival) :
    mapCalls.RunsTo me h (a.task false) (a.apply h) (a.task true) := by
  cases a with
  | push via msg => exact push_runsTo me h via msg
  | update u => exact .head (i := .run) rfl (.refl ..)

/-- The envelope that arrives. -/
def envelope : Arrival → Option SimToServer
  | .push _ msg => some msg
  | .update _ => none

/-- The first envelope with this corr that `accepts` lets through. -/
def firstReply (corr : UInt64) (accepts : SimToServer → Bool) (arrivals : List Arrival) :
    Option SimToServer :=
  (arrivals.filterMap envelope).find? fun msg => decide (msg.corr = corr) && accepts msg

/-- The wait of a call that owns the channel `tx`: the arrivals, then the timeout. -/
def wait (tx : Nat) (arrivals : List Arrival) : Wait := fun _ m =>
  let after := arrivals.foldl apply { instances := m }
  (after.instances, (after.oneshot tx).outcome)

end Arrival

/-! ## One arrival -/

namespace Host

theorem oneshot_pushInbound (h : Host) (via : String) (msg : SimToServer) (tx : Nat) :
    (h.pushInbound via msg).oneshot tx =
      if (h.instances.takeMatching msg).1 = some tx then .sent via msg else h.oneshot tx := by
  change (h.completeWaiter via msg).oneshot tx = _
  unfold completeWaiter
  split
  · rename_i tx' instances htake
    rw [htake]
    change Function.update h.oneshot tx' (.sent via msg) tx = _
    by_cases he : tx = tx'
    · rw [he, Function.update_self, if_pos rfl]
    · rw [Function.update_of_ne he, if_neg]
      exact fun hs => he (Option.some.inj hs).symm
  · rename_i instances htake
    rw [htake, if_neg (Option.some_ne_none tx).symm]

theorem waiter_pushInbound (h : Host) (via : String) (msg : SimToServer) (corr : UInt64) :
    (h.pushInbound via msg).instances.waiters.lookup corr =
      if (h.instances.takeMatching msg).1.isSome ∧ corr = msg.corr then none
      else h.instances.waiters.lookup corr :=
  h.lookup_completeWaiter via msg corr

/-- The waiter that owns the channel `tx` is under `corr`, and nothing has been sent. -/
structure Pending (corr : UInt64) (kind : WaitKind) (tx : Nat) (h : Host) : Prop where
  waiter : h.instances.waiters.lookup corr = some (kind, tx)
  only : ∀ corr' kind', h.instances.waiters.lookup corr' = some (kind', tx) → corr' = corr
  empty : h.oneshot tx = .waiting

/-- The reply has been sent on the channel `tx`, and no waiter owns the channel any more. -/
structure Answered (tx : Nat) (reply : SimToServer) (h : Host) : Prop where
  gone : ∀ corr kind, h.instances.waiters.lookup corr ≠ some (kind, tx)
  sent : ∃ via, h.oneshot tx = .sent via reply

variable {corr : UInt64} {kind : WaitKind} {tx : Nat} {h : Host}

/-- A push that does not take the waiter leaves it pending. -/
theorem Pending.of_not_taken (hp : Pending corr kind tx h) {via : String} {msg : SimToServer}
    (hnot : (h.instances.takeMatching msg).1 ≠ some tx) :
    Pending corr kind tx (h.pushInbound via msg) := by
  refine ⟨?_, fun corr' kind' hl => ?_, ?_⟩
  · rw [waiter_pushInbound, if_neg, hp.waiter]
    rintro ⟨htake, rfl⟩
    obtain ⟨tx', htx'⟩ := Option.isSome_iff_exists.mp htake
    obtain ⟨-, kind', hl, -⟩ := InstanceMap.takeMatching_fst htx'
    rw [hp.waiter] at hl
    cases hl
    exact hnot htx'
  · rw [waiter_pushInbound] at hl
    split at hl
    · cases hl
    · exact hp.only corr' kind' hl
  · rw [oneshot_pushInbound, if_neg hnot, hp.empty]

/-- A push that takes the waiter answers the call. -/
theorem Pending.of_taken (hp : Pending corr kind tx h) {via : String} {msg : SimToServer}
    (htake : (h.instances.takeMatching msg).1 = some tx) :
    Answered tx msg (h.pushInbound via msg) := by
  obtain ⟨-, kind₀, hl₀, -⟩ := InstanceMap.takeMatching_fst htake
  have hcorr : msg.corr = corr := hp.only msg.corr kind₀ hl₀
  refine ⟨fun corr' kind' hl => ?_, via, ?_⟩
  · rw [waiter_pushInbound, htake] at hl
    split at hl
    · cases hl
    · rename_i hne
      have hsame : corr' = corr := hp.only corr' kind' hl
      exact hne ⟨rfl, hsame.trans hcorr.symm⟩
  · rw [oneshot_pushInbound, if_pos htake]

/-- Whether a push takes the waiter: it has the corr, and the waiter accepts it. -/
theorem Pending.taken_iff (hp : Pending corr kind tx h) (hcorr : corr ≠ 0) (msg : SimToServer) :
    (h.instances.takeMatching msg).1 = some tx ↔
      (decide (msg.corr = corr) && InstanceMap.waiterMatches kind msg) = true := by
  rw [Bool.and_eq_true, decide_eq_true_iff]
  constructor
  · intro htake
    obtain ⟨-, kind', hl, hm⟩ := InstanceMap.takeMatching_fst htake
    have hsame := hp.only msg.corr kind' hl
    rw [hsame, hp.waiter] at hl
    cases hl
    exact ⟨hsame, hm⟩
  · rintro ⟨rfl, hm⟩
    exact InstanceMap.takeMatching_of_lookup hcorr hp.waiter hm

theorem Answered.apply {reply : SimToServer} (ha : Answered tx reply h) (a : Arrival) :
    Answered tx reply (a.apply h) := by
  cases a with
  | push via msg =>
    have hnot : (h.instances.takeMatching msg).1 ≠ some tx := by
      intro htake
      obtain ⟨-, kind, hl, -⟩ := InstanceMap.takeMatching_fst htake
      exact ha.gone msg.corr kind hl
    obtain ⟨via', hsent⟩ := ha.sent
    refine ⟨fun corr kind hl => ?_, via', ?_⟩
    · change (h.pushInbound via msg).instances.waiters.lookup corr = _ at hl
      rw [waiter_pushInbound] at hl
      split at hl
      · cases hl
      · exact ha.gone corr kind hl
    · change (h.pushInbound via msg).oneshot tx = _
      rw [oneshot_pushInbound, if_neg hnot, hsent]
  | update u =>
    have hframe := (MapUpdate.apply_frame h.instances u).1
    refine ⟨fun corr kind hl => ?_, ha.sent⟩
    change (u.apply h.instances).waiters.lookup corr = _ at hl
    rw [hframe] at hl
    exact ha.gone corr kind hl

theorem Pending.update (hp : Pending corr kind tx h) (u : MapUpdate) :
    Pending corr kind tx ((Arrival.update u).apply h) := by
  have hframe := (MapUpdate.apply_frame h.instances u).1
  refine ⟨?_, fun corr' kind' hl => ?_, hp.empty⟩
  · change (u.apply h.instances).waiters.lookup corr = _
    rw [hframe, hp.waiter]
  · change (u.apply h.instances).waiters.lookup corr' = _ at hl
    rw [hframe] at hl
    exact hp.only corr' kind' hl

/-! ## All arrivals -/

theorem Answered.foldl {reply : SimToServer} (ha : Answered tx reply h) (arrivals : List Arrival) :
    Answered tx reply (arrivals.foldl Arrival.apply h) := by
  induction arrivals generalizing h with
  | nil => exact ha
  | cons a rest ih => exact ih (ha.apply a)

/-- The channel at the timeout: the first reply that the waiter accepts, if there is one. -/
theorem Pending.foldl (hp : Pending corr kind tx h) (hcorr : corr ≠ 0) (arrivals : List Arrival) :
    ((arrivals.foldl Arrival.apply h).oneshot tx).outcome =
      (Arrival.firstReply corr (InstanceMap.waiterMatches kind) arrivals).elim .elapsed .reply := by
  induction arrivals generalizing h with
  | nil =>
    change (h.oneshot tx).outcome = .elapsed
    rw [hp.empty]
    rfl
  | cons a rest ih =>
    cases a with
    | update u => exact ih (hp.update u)
    | push via msg =>
      have hiff := hp.taken_iff hcorr msg
      rw [Arrival.firstReply, List.filterMap_cons, Arrival.envelope, List.find?_cons]
      by_cases htake : (h.instances.takeMatching msg).1 = some tx
      · have hanswered : Answered tx msg (h.pushInbound via msg) := hp.of_taken htake
        obtain ⟨via', hsent⟩ := (hanswered.foldl rest).sent
        rw [hiff.mp htake, List.foldl_cons]
        change ((rest.foldl Arrival.apply (h.pushInbound via msg)).oneshot tx).outcome = _
        rw [hsent]
        rfl
      · have hno : (decide (msg.corr = corr) && InstanceMap.waiterMatches kind msg) = false :=
          Bool.eq_false_iff.mpr fun hyes => htake (hiff.mpr hyes)
        rw [hno]
        exact ih (hp.of_not_taken htake)

end Host

end CsmProxy
