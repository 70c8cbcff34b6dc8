import CsmProxy.Observe.Loop

/-!
# How a waiting observe call ends

On a session that stays connected every waiting observe call returns, at the first turn
that reads the clock at or after the deadline, or at the first turn on which a condition
holds (`endsCorrectly`). A drain that ends and a sleep that is woken are assumptions on the
hosts that the call finds; that the loop ends follows from the 25 ms that a turn takes.
-/

namespace CsmProxy

open Foundations

/-- The instance is connected on `h`, under its own id. -/
structure Connected (id : String) (h : Host) : Prop where
  valid : isValidInstanceId id = true
  entry : ∃ inst, h.instances.inner.lookup id = some inst ∧ inst.register.instanceId = id

theorem Connected.resolve {id : String} {h : Host} (hc : Connected id h) :
    ∃ snap, h.instances.resolve id = .ok snap := by
  obtain ⟨inst, hid, -⟩ := hc.entry
  refine ⟨⟨inst.token, inst.register, inst.lastHeartbeat⟩, ?_⟩
  rw [InstanceMap.resolve, InstanceMap.get, hid, hc.valid]
  rfl

theorem Connected.ownEntry {id : String} {h : Host} (hc : Connected id h) : OwnEntry id h := by
  intro inst hid
  obtain ⟨inst', hid', hown⟩ := hc.entry
  rw [hid] at hid'
  cases hid'
  exact hown

/-- The call is about `id`: it names it, or it is the default. -/
def Names (see : Nat → Host) (instanceId : Option String) (id : String) : Prop :=
  instanceId = some id ∨ (instanceId = none ∧ ∀ n, (see n).instances.defaultInstance = some id)

/-- What a call for `id` finds: its session stays connected, the clock does not go back,
every drain finds the queue empty some time, and every sleep is over some time. -/
structure Schedule (me : Nat) (instanceId : Option String) (id : String) (spec : ObserveSpec)
    (see : Nat → Host) : Prop where
  connected : ∀ n, Connected id (see n)
  named : Names see instanceId id
  clock : ∀ n, (see n).now ≤ (see (n + 1)).now
  drained : ∀ n mask,
    (ObserveCall.follow me see (.start instanceId (some spec)) n).1.pc = .drain mask →
    ∃ k, n ≤ k ∧ (see k).queued id = []
  woken : ∀ n wake,
    (ObserveCall.follow me see (.start instanceId (some spec)) n).1.pc = .sleep wake →
    ∃ k, n ≤ k ∧ wake ≤ (see k).now

namespace ObserveCall

/-! ## The next section -/

section Next

variable {me : Nat} {h : Host} {c : ObserveCall} {r : Turns}

/-- A call that has its instance does not look for the default one. -/
theorem advance_ne_default (hpc : c.pc ≠ .default) : (advance me h (c, r)).1.pc ≠ .default := by
  rw [advance]
  cases hs : c.step me h .run with
  | none => exact hpc
  | some r' =>
    obtain ⟨h', c'⟩ := r'
    cases step_cases hs with
    | pop pc recv => exact hpc
    | drained pc recv =>
      intro hdef
      change c.afterDrain = .default at hdef
      unfold afterDrain at hdef
      split at hdef
      · cases hdef
      · split at hdef <;> cases hdef
    | _ => exact fun hdef => by cases hdef

/-- Once the loop has begun the deadline stays. -/
theorem advance_deadline (hpoll : c.polling = true) (hpc : c.pc ≠ .floor) :
    (advance me h (c, r)).1.polling = true ∧ (advance me h (c, r)).1.deadline = c.deadline := by
  rw [advance]
  cases hs : c.step me h .run with
  | none => exact ⟨hpoll, rfl⟩
  | some r' =>
    obtain ⟨h', c'⟩ := r'
    cases step_cases hs with
    | floor pc waits => exact absurd pc hpc
    | _ => exact ⟨hpoll, rfl⟩

theorem advance_resolve {id : String} (hc : Connected id h) (hpc : c.pc = .resolve id) :
    (advance me h (c, r)).1.pc = .readMask := by
  obtain ⟨snap, hresolve⟩ := hc.resolve
  have hstep : c.step me h .run =
      some (h, { c with id := snap.register.instanceId, pc := .readMask }) := by
    unfold step
    rw [hpc]
    simp only [hresolve]
  rw [advance, hstep]
  rfl

theorem advance_readMask (hpc : c.pc = .readMask) :
    ∃ mask, (advance me h (c, r)).1.pc = .drain mask := by
  obtain ⟨cspec, pc, cid, polling, events, floor, deadline⟩ := c
  obtain rfl : pc = .readMask := hpc
  exact ⟨_, rfl⟩

/-- A pop goes on with the drain, or the queue was empty. -/
theorem advance_drain {mask : List String} (hpc : c.pc = .drain mask) :
    ((advance me h (c, r)).1.pc = .drain mask ∧ h.queued c.id ≠ []) ∨
      (advance me h (c, r)).1.pc = c.afterDrain := by
  rcases hr : h.instances.tryRecvInbound c.id with ⟨_ | msg, instances⟩
  · have hstep : c.step me h .run = some ({ h with instances := instances },
        { c with pc := c.afterDrain }) := by
      unfold step
      rw [hpc]
      simp only [hr]
    rw [advance, hstep]
    exact .inr rfl
  · have hstep : c.step me h .run =
        some ({ h with instances := instances, pops := h.pops ++ [(me, c.id, msg)] },
          { c with events :=
            if InstanceMap.inboundVisible mask msg then c.events ++ [msg] else c.events }) := by
      unfold step
      rw [hpc]
      simp only [hr]
    rw [advance, hstep]
    refine .inl ⟨hpc, ?_⟩
    rw [(Host.recv_some [] hr).1]
    exact List.cons_ne_nil _ _

variable {spec : ObserveSpec}

theorem advance_floor (hpc : c.pc = .floor) (hspec : c.spec = some spec) :
    (advance me h (c, r)).1.pc = .check := by
  obtain ⟨cspec, pc, cid, polling, events, floor, deadline⟩ := c
  obtain rfl : pc = .floor := hpc
  obtain rfl : cspec = some spec := hspec
  rfl

theorem advance_check (hpc : c.pc = .check) (hspec : c.spec = some spec) :
    ∃ matched, (advance me h (c, r)).1.pc = .clock matched := by
  obtain ⟨cspec, pc, cid, polling, events, floor, deadline⟩ := c
  obtain rfl : pc = .check := hpc
  obtain rfl : cspec = some spec := hspec
  exact ⟨_, rfl⟩

/-- A turn ends the loop, or it sleeps for 25 ms and the deadline has not come. -/
theorem advance_clock {matched : Bool} (hpc : c.pc = .clock matched) (hspec : c.spec = some spec) :
    (∃ waiting, (advance me h (c, r)).1.pc = .reply waiting matched) ∨
      ((advance me h (c, r)).1.pc = .sleep (h.now + millis 25) ∧ h.now < c.deadline) := by
  have hstep : ∃ r', c.step me h .run = some r' := by
    unfold step
    rw [hpc, hspec]
    exact ⟨_, rfl⟩
  obtain ⟨⟨h', c'⟩, hs⟩ := hstep
  rw [advance, hs]
  cases step_cases hs with
  | exit pc waits last =>
    rw [hpc] at pc
    cases pc
    exact .inl ⟨_, rfl⟩
  | sleep pc waits unmatched early => exact .inr ⟨rfl, early⟩
  | pop pc | drained pc =>
    rw [hpc] at pc
    cases pc
  | named pc | unnamed pc | resolved pc | unresolved pc | readMask pc | floor pc | check pc
  | reply pc | wake pc =>
    rw [hpc] at pc
    cases pc

theorem advance_reply {waiting matched : Bool} (hpc : c.pc = .reply waiting matched) :
    ∃ reply, (advance me h (c, r)).1.pc = .returned (.ok reply) := by
  obtain ⟨cspec, pc, cid, polling, events, floor, deadline⟩ := c
  obtain rfl : pc = .reply waiting matched := hpc
  exact ⟨_, rfl⟩

theorem advance_sleep {wake : Nat} (hpc : c.pc = .sleep wake) :
    (advance me h (c, r)).1.pc = if wake ≤ h.now then .resolve c.id else .sleep wake := by
  obtain ⟨cspec, pc, cid, polling, events, floor, deadline⟩ := c
  obtain rfl : pc = .sleep wake := hpc
  rw [advance]
  simp only [step]
  split <;> rfl

end Next

section Following

variable {me : Nat} {instanceId : Option String} {id : String} {spec : ObserveSpec}
  {see : Nat → Host}

theorem follows_start (named : Names see instanceId id) :
    Follows spec id (start instanceId (some spec)) {} := by
  rcases named with rfl | ⟨rfl, -⟩
  · exact ⟨rfl, rfl, nofun, rfl, fun _ => rfl, trivial⟩
  · exact ⟨rfl, rfl, nofun, rfl, rfl⟩

theorem named_of_default (named : Names see instanceId id) {n : Nat}
    (hpc : (follow me see (start instanceId (some spec)) n).1.pc = .default) :
    (see n).instances.defaultInstance = some id := by
  rcases named with rfl | ⟨rfl, hall⟩
  · have hne : ∀ j, (follow me see (start (some id) (some spec)) j).1.pc ≠ .default := by
      intro j
      induction j with
      | zero => exact fun h => by cases h
      | succ j ih => exact advance_ne_default ih
    exact absurd hpc (hne n)
  · exact hall n

/-- The run lemma of `Follows.advance`. -/
theorem follows_of_ownEntry (own : ∀ n, OwnEntry id (see n)) (named : Names see instanceId id)
    (n : Nat) : Follows spec id (follow me see (start instanceId (some spec)) n).1
      (follow me see (start instanceId (some spec)) n).2 := by
  induction n with
  | zero => exact follows_start named
  | succ n ih => exact ih.advance (own n) (named_of_default named)

/-- A call that returns a response returns the right one. -/
theorem endsCorrectly_of_returned (own : ∀ n, OwnEntry id (see n))
    (named : Names see instanceId id) {n : Nat} {reply : ObserveReply}
    (hpc : (follow me see (start instanceId (some spec)) n).1.pc = .returned (.ok reply)) :
    EndsCorrectly spec id (follow me see (start instanceId (some spec)) n).2 reply := by
  have hfollows : Follows spec id (follow me see (start instanceId (some spec)) n).1
      (follow me see (start instanceId (some spec)) n).2 := follows_of_ownEntry own named n
  have hstage := hfollows.stage
  unfold Stage at hstage
  rw [hpc] at hstage
  exact hstage

end Following

/-! ## Every call returns -/

section Ending

variable {me : Nat} {instanceId : Option String} {id : String} {spec : ObserveSpec}
  {see : Nat → Host}

/-- The call after `n` turns of the scheduler. -/
abbrev callAt (me : Nat) (see : Nat → Host) (instanceId : Option String) (spec : ObserveSpec)
    (n : Nat) : ObserveCall :=
  (follow me see (start instanceId (some spec)) n).1

variable (sched : Schedule me instanceId id spec see)

include sched

theorem follows (n : Nat) : Follows spec id (callAt me see instanceId spec n)
    (follow me see (start instanceId (some spec)) n).2 :=
  follows_of_ownEntry (fun n => (sched.connected n).ownEntry) sched.named n

theorem spec_callAt (n : Nat) : (callAt me see instanceId spec n).spec = some spec :=
  (follows sched n).spec_eq

/-- In the loop the deadline stays. -/
theorem deadline_callAt {n k : Nat} (hpoll : (callAt me see instanceId spec n).polling = true)
    (hk : n ≤ k) : (callAt me see instanceId spec k).polling = true ∧
      (callAt me see instanceId spec k).deadline = (callAt me see instanceId spec n).deadline := by
  induction k, hk using Nat.le_induction with
  | base => exact ⟨hpoll, rfl⟩
  | succ k hk ih =>
    obtain ⟨hpoll', hsame⟩ := ih
    have hpc : (callAt me see instanceId spec k).pc ≠ .floor := by
      intro hpc
      have hstage := (follows sched k).stage
      unfold Stage at hstage
      rw [hpc] at hstage
      exact absurd (hpoll'.symm.trans hstage.1) (by decide)
    have hnext : (callAt me see instanceId spec (k + 1)).polling = true ∧
        (callAt me see instanceId spec (k + 1)).deadline =
          (callAt me see instanceId spec k).deadline := advance_deadline hpoll' hpc
    exact ⟨hnext.1, hnext.2.trans hsame⟩

theorem now_mono {n k : Nat} (hk : n ≤ k) : (see n).now ≤ (see k).now :=
  monotone_nat_of_le_succ (f := fun n => (see n).now) sched.clock hk

theorem clock_of_check {n : Nat} (hpc : (callAt me see instanceId spec n).pc = .check) :
    ∃ k, n < k ∧ ∃ matched, (callAt me see instanceId spec k).pc = .clock matched :=
  ⟨n + 1, Nat.lt_succ_self n, advance_check hpc (spec_callAt sched n)⟩

theorem clock_of_floor {n : Nat} (hpc : (callAt me see instanceId spec n).pc = .floor) :
    ∃ k, n < k ∧ ∃ matched, (callAt me see instanceId spec k).pc = .clock matched := by
  have hnext : (callAt me see instanceId spec (n + 1)).pc = .check :=
    advance_floor hpc (spec_callAt sched n)
  obtain ⟨k, hk, hclock⟩ := clock_of_check sched hnext
  exact ⟨k, by omega, hclock⟩

theorem clock_of_afterDrain {n : Nat} (hpc : (callAt me see instanceId spec (n + 1)).pc =
    (callAt me see instanceId spec n).afterDrain) :
    ∃ k, n < k ∧ ∃ matched, (callAt me see instanceId spec k).pc = .clock matched := by
  rw [afterDrain, spec_callAt sched n, Option.isSome_some, if_pos rfl] at hpc
  split at hpc
  · obtain ⟨k, hk, hclock⟩ := clock_of_check sched hpc
    exact ⟨k, by omega, hclock⟩
  · obtain ⟨k, hk, hclock⟩ := clock_of_floor sched hpc
    exact ⟨k, by omega, hclock⟩

/-- A drain ends, and a turn begins. -/
theorem clock_of_drain {n : Nat} {mask : List String}
    (hpc : (callAt me see instanceId spec n).pc = .drain mask) :
    ∃ k, n < k ∧ ∃ matched, (callAt me see instanceId spec k).pc = .clock matched := by
  obtain ⟨last, hlast, hempty⟩ := sched.drained n mask hpc
  induction hd : last - n generalizing n with
  | zero =>
    obtain rfl : last = n := by omega
    have hstage := (follows sched last).stage
    unfold Stage at hstage
    rw [hpc] at hstage
    have hnext : ((callAt me see instanceId spec (last + 1)).pc = .drain mask ∧
          (see last).queued (callAt me see instanceId spec last).id ≠ []) ∨
        (callAt me see instanceId spec (last + 1)).pc =
          (callAt me see instanceId spec last).afterDrain := advance_drain hpc
    rcases hnext with ⟨-, hne⟩ | hafter
    · rw [hstage.1] at hne
      exact absurd hempty hne
    · exact clock_of_afterDrain sched hafter
  | succ d ih =>
    have hnext : ((callAt me see instanceId spec (n + 1)).pc = .drain mask ∧
          (see n).queued (callAt me see instanceId spec n).id ≠ []) ∨
        (callAt me see instanceId spec (n + 1)).pc =
          (callAt me see instanceId spec n).afterDrain := advance_drain hpc
    rcases hnext with ⟨hdrain, -⟩ | hafter
    · obtain ⟨k, hk, hclock⟩ := ih hdrain (by omega) (by omega)
      exact ⟨k, by omega, hclock⟩
    · exact clock_of_afterDrain sched hafter

theorem clock_of_resolve {n : Nat} (hpc : (callAt me see instanceId spec n).pc = .resolve id) :
    ∃ k, n < k ∧ ∃ matched, (callAt me see instanceId spec k).pc = .clock matched := by
  have hnext : (callAt me see instanceId spec (n + 1)).pc = .readMask :=
    advance_resolve (sched.connected n) hpc
  obtain ⟨mask, hdrain⟩ :
      ∃ mask, (callAt me see instanceId spec (n + 1 + 1)).pc = .drain mask := advance_readMask hnext
  obtain ⟨k, hk, hclock⟩ := clock_of_drain sched hdrain
  exact ⟨k, by omega, hclock⟩

theorem clock_of_wake {n wake : Nat} (hpc : (callAt me see instanceId spec n).pc = .sleep wake)
    (hwake : wake ≤ (see n).now) :
    ∃ k, n < k ∧ wake ≤ (see k).now ∧
      ∃ matched, (callAt me see instanceId spec k).pc = .clock matched := by
  have hid : (callAt me see instanceId spec n).id = id := by
    have hstage := (follows sched n).stage
    unfold Stage at hstage
    rw [hpc] at hstage
    exact ((follows sched n).polled hstage.1).1
  have hnext : (callAt me see instanceId spec (n + 1)).pc =
      if wake ≤ (see n).now then .resolve (callAt me see instanceId spec n).id
      else .sleep wake := advance_sleep hpc
  rw [if_pos hwake, hid] at hnext
  obtain ⟨k, hk, hclock⟩ := clock_of_resolve sched hnext
  have hmono := now_mono sched (show n ≤ k by omega)
  exact ⟨k, by omega, by omega, hclock⟩

/-- A sleep is over no sooner than it should be, and the next turn begins. -/
theorem clock_of_sleep {n wake : Nat} (hpc : (callAt me see instanceId spec n).pc = .sleep wake) :
    ∃ k, n < k ∧ wake ≤ (see k).now ∧
      ∃ matched, (callAt me see instanceId spec k).pc = .clock matched := by
  obtain ⟨last, hlast, hover⟩ := sched.woken n wake hpc
  induction hd : last - n generalizing n with
  | zero =>
    obtain rfl : last = n := by omega
    exact clock_of_wake sched hpc hover
  | succ d ih =>
    by_cases hnow : wake ≤ (see n).now
    · exact clock_of_wake sched hpc hnow
    · have hnext : (callAt me see instanceId spec (n + 1)).pc =
          if wake ≤ (see n).now then .resolve (callAt me see instanceId spec n).id
          else .sleep wake := advance_sleep hpc
      rw [if_neg hnow] at hnext
      obtain ⟨k, hk, hclock⟩ := ih hnext (by omega) (by omega)
      exact ⟨k, by omega, hclock⟩

/-- The call returns from every turn: each takes 25 ms, so the deadline comes. -/
theorem returns_of_clock {n : Nat} {matched : Bool}
    (hpc : (callAt me see instanceId spec n).pc = .clock matched) :
    ∃ k reply, (callAt me see instanceId spec k).pc = .returned (.ok reply) := by
  have hpoll : (callAt me see instanceId spec n).polling = true := by
    have hstage := (follows sched n).stage
    unfold Stage at hstage
    rw [hpc] at hstage
    exact hstage.1
  induction hleft : (callAt me see instanceId spec n).deadline - (see n).now using
    Nat.strong_induction_on generalizing n matched with
  | _ left ih =>
    have hnext : (∃ waiting, (callAt me see instanceId spec (n + 1)).pc = .reply waiting matched) ∨
        ((callAt me see instanceId spec (n + 1)).pc = .sleep ((see n).now + millis 25) ∧
          (see n).now < (callAt me see instanceId spec n).deadline) :=
      advance_clock hpc (spec_callAt sched n)
    rcases hnext with ⟨waiting, hreply⟩ | ⟨hsleep, hearly⟩
    · exact ⟨n + 1 + 1, advance_reply hreply⟩
    · obtain ⟨k, hk, hwake, matched', hclock⟩ := clock_of_sleep sched hsleep
      obtain ⟨hpoll', hsame⟩ := deadline_callAt sched hpoll (show n ≤ k by omega)
      have htime : 0 < millis 25 := by decide
      refine ih _ ?_ hclock hpoll' rfl
      rw [hsame]
      omega

/-- Every call returns a response. -/
theorem returns : ∃ n reply, (callAt me see instanceId spec n).pc = .returned (.ok reply) := by
  obtain ⟨n, hresolve⟩ : ∃ n, (callAt me see instanceId spec n).pc = .resolve id := by
    rcases sched.named with rfl | ⟨rfl, hdefault⟩
    · exact ⟨0, rfl⟩
    · refine ⟨1, ?_⟩
      have hstep : (start none (some spec)).step me (see 0) .run =
          some (see 0, { start none (some spec) with pc := .resolve id }) := by
        simp only [start, step, Option.elim_none, hdefault 0]
      change (advance me (see 0) (start none (some spec), {})).1.pc = _
      rw [advance, hstep]
      rfl
  obtain ⟨k, -, matched, hclock⟩ := clock_of_resolve sched hresolve
  exact returns_of_clock sched hclock

/-- No call returns an error. -/
theorem no_error (n : Nat) (err : String) :
    (callAt me see instanceId spec n).pc ≠ .returned (.error err) := by
  induction n with
  | zero =>
    rcases sched.named with rfl | ⟨rfl, -⟩ <;> exact fun h => by cases h
  | succ n ih =>
    change (advance me (see n) (follow me see (start instanceId (some spec)) n)).1.pc ≠ _
    rw [advance]
    cases hs : (callAt me see instanceId spec n).step me (see n) .run with
    | none => exact ih
    | some r' =>
      obtain ⟨h', c'⟩ := r'
      cases step_cases hs with
      | unnamed pc missing =>
        rw [named_of_default sched.named pc] at missing
        cases missing
      | @unresolved target _ pc missing =>
        have hstage := (follows sched n).stage
        unfold Stage at hstage
        rw [pc] at hstage
        obtain ⟨snap, hresolve⟩ := (sched.connected n).resolve
        rw [hstage.1, hresolve] at missing
        cases missing
      | pop pc recv => exact ih
      | drained pc recv =>
        intro hpc
        change (callAt me see instanceId spec n).afterDrain = _ at hpc
        rw [afterDrain, spec_callAt sched n] at hpc
        split at hpc <;> cases hpc
      | _ => exact fun h => by cases h

end Ending

end ObserveCall

/-- What a waiting observe call does on a session that stays connected. -/
structure ObserveEnds (me : Nat) (instanceId : Option String) (id : String) (spec : ObserveSpec)
    (see : Nat → Host) : Prop where
  returns : ∃ n reply,
    (ObserveCall.follow me see (.start instanceId (some spec)) n).1.pc = .returned (.ok reply)
  correct : ∀ n result,
    (ObserveCall.follow me see (.start instanceId (some spec)) n).1.pc = .returned result →
    ∃ reply, result = .ok reply ∧
      EndsCorrectly spec id (ObserveCall.follow me see (.start instanceId (some spec)) n).2 reply

/-- **Waiting observe calls end correctly.** Every call on a session that stays connected
returns a response, and the response is right, given the turns that the call took. -/
theorem observeEnds_of_schedule {me : Nat} {instanceId : Option String} {id : String}
    {spec : ObserveSpec} {see : Nat → Host} (sched : Schedule me instanceId id spec see) :
    ObserveEnds me instanceId id spec see := by
  refine ⟨ObserveCall.returns sched, fun n result hpc => ?_⟩
  cases result with
  | error err => exact absurd hpc (ObserveCall.no_error sched n err)
  | ok reply =>
    have own : ∀ n, OwnEntry id (see n) := fun n => (sched.connected n).ownEntry
    exact ⟨reply, rfl, ObserveCall.endsCorrectly_of_returned own sched.named hpc⟩

/-- A host on which `a` is connected and nothing arrives. -/
def idleHost (now : Nat) : Host :=
  let inst := InstanceMap.newInstance 1 { instanceId := "a" } 4 (.new 4)
  { instances := { inner := Finmap.singleton "a" inst }, now := now }

theorem schedule_idleHost (me : Nat) (spec : ObserveSpec) :
    Schedule me (some "a") "a" spec fun n => idleHost (millis (25 * n)) where
  connected _ := ⟨by decide, _, rfl, rfl⟩
  named := .inl rfl
  clock n := by
    change millis (25 * n) ≤ millis (25 * (n + 1))
    unfold millis
    omega
  drained n _ _ := ⟨n, le_refl n, rfl⟩
  woken n wake _ := by
    refine ⟨n + wake, by omega, ?_⟩
    change wake ≤ millis (25 * (n + wake))
    unfold millis
    omega

/-- A heartbeat of `a` arrives. -/
def InstanceMap.arrive (m : InstanceMap) (hb : Heartbeat) : InstanceMap :=
  (m.setHeartbeat "a" 1 hb).enqueueInbound "a" { payload := some (.heartbeat hb) }

/-- A host on which `a` is connected and two heartbeats arrive: one before the first drain,
and one while the call sleeps. -/
def busyHost (n : Nat) : Host :=
  let idle := idleHost (millis (25 * n))
  let reading := idle.instances.arrive { activity := "EpubReader" }
  let drained := (reading.tryRecvInbound "a").2
  let home := drained.arrive { activity := "Home" }
  { idle with
    instances :=
      if n < 3 then reading else if n < 7 then drained
      else if n < 11 then home else (home.tryRecvInbound "a").2 }

theorem schedule_busyHost (me : Nat) (spec : ObserveSpec) :
    Schedule me (some "a") "a" spec busyHost where
  connected n := by
    refine ⟨by decide, ?_⟩
    simp only [busyHost]
    by_cases hread : n < 3
    · rw [if_pos hread]
      exact ⟨_, rfl, rfl⟩
    · rw [if_neg hread]
      by_cases hdrain : n < 7
      · rw [if_pos hdrain]
        exact ⟨_, rfl, rfl⟩
      · rw [if_neg hdrain]
        by_cases hhome : n < 11
        · rw [if_pos hhome]
          exact ⟨_, rfl, rfl⟩
        · rw [if_neg hhome]
          exact ⟨_, rfl, rfl⟩
  named := .inl rfl
  clock n := by
    change millis (25 * n) ≤ millis (25 * (n + 1))
    unfold millis
    omega
  drained n _ _ := by
    refine ⟨n + 11, by omega, ?_⟩
    simp only [Host.queued, busyHost]
    rw [if_neg (by omega), if_neg (by omega), if_neg (by omega)]
    rfl
  woken n wake _ := by
    refine ⟨n + wake, by omega, ?_⟩
    change wake ≤ millis (25 * (n + wake))
    unfold millis
    omega

/-- A wait for the home screen. The first turn finds another screen, the second one the home
screen. -/
theorem observeEnds_busy :
    ObserveEnds 0 (some "a") "a" { waitMs := some 1000, untilActivity := some "Home" } busyHost ∧
      (ObserveCall.follow 0 busyHost
        (.start (some "a") (some { waitMs := some 1000, untilActivity := some "Home" })) 15).1.pc =
        .returned (.ok ⟨"a", [{ payload := some (.heartbeat { activity := "EpubReader" }) },
          { payload := some (.heartbeat { activity := "Home" }) }],
          ⟨some 0, "Home", 0, 0⟩, some true, some false⟩) :=
  ⟨observeEnds_of_schedule (schedule_busyHost 0 _), by decide +kernel⟩

end CsmProxy
