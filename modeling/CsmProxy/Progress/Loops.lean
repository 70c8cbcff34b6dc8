import CsmProxy.Progress.Ranks
import CsmProxy.Runtime.Footprint

/-!
# How much the loops have left to do

The ranks of the tasks with loops: `start_instance` and `observe` poll until a deadline,
`reap_all` and `remove_if` go through a set that they have collected, and the handler of a
stream works on one message. `ServerTask.step_rank` puts all tasks together.
-/

namespace CsmProxy

open Foundations

/-! ## Spawning -/

/-- The sections to come. -/
def StartPc.left : StartPc → Nat
  | .check _ => 8
  | .reserve => 7
  | .createDir => 6
  | .seedBook => 5
  | .seedSettings => 4
  | .exec => 3
  | .clear _ => 1
  | .store .. => 1

theorem StartPc.step_left {args : StartArgs} {me : Nat} {h h' : Host} {pc pc' : StartPc}
    {i : Choice} (hs : pc.step args me h i = some (h', .inl pc')) : pc'.left < pc.left := by
  have hsection := step_section hs
  generalize hout : (Sum.inl pc' : StartPc ⊕ Except SpawnError UInt32) = out at hsection
  cases hsection with
  | failed op => cases hout; rcases op with rfl | ⟨rfl, -⟩ | ⟨rfl, -⟩ | rfl <;> simp [left]
  | _ => cases hout <;> simp [left]

theorem StartPc.left_pos (pc : StartPc) : 0 < pc.left := by cases pc <;> simp [left]

/-- The sections to come. -/
def ReapPc.left : ReapPc → Nat
  | .take => 3
  | .kill _ => 2
  | .wait .. => 1

theorem ReapPc.step_left {id : String} {me : Nat} {h h' : Host} {pc pc' : ReapPc} {i : Choice}
    (hs : pc.step id me h i = some (h', some pc')) : pc'.left < pc.left := by
  cases pc <;> cases i <;> simp only [step] at hs
  case take.run =>
    obtain ⟨-, hout⟩ := Prod.mk.inj (Option.some.inj hs)
    obtain ⟨child, -, rfl⟩ := Option.map_eq_some_iff.mp hout
    simp [left]
  case kill.run => cases hs; simp [left]
  case wait.run => split at hs <;> cases hs
  all_goals cases hs

theorem ReapPc.left_pos (pc : ReapPc) : 0 < pc.left := by cases pc <;> simp [left]

/-- The rank of a `reap_all` call. -/
def ReapAllPc.rank : ReapAllPc → Rank
  | .collect => CsmProxy.rank 1 0 0
  | .next rest => CsmProxy.rank 0 rest.card 4
  | .reap _ pc rest => CsmProxy.rank 0 rest.card (4 + pc.left)
  | .returned => CsmProxy.rank 0 0 0

theorem SupervisorCall.reapAllStep_rank {me : Nat} {h h' : Host} {pc pc' : ReapAllPc} {i : Choice}
    (hs : reapAllStep me h pc i = some (h', pc')) : pc'.rank < pc.rank := by
  cases pc with
  | collect =>
    cases i <;> cases hs
    exact rank_lt_of_phase Nat.one_pos
  | next rest =>
    cases i <;> simp only [reapAllStep] at hs
    case run =>
      split at hs
      · rename_i hempty
        cases hs
        subst hempty
        exact rank_lt_of_left (by decide)
      · cases hs
    case pickId id =>
      split at hs
      · rename_i hid
        cases hs
        have hcard : (rest.erase id).card < rest.card := Finset.card_erase_lt_of_mem hid
        exact rank_lt_of_rounds hcard
      · cases hs
    all_goals cases hs
  | reap id pc rest =>
    obtain ⟨⟨g, out⟩, hp, he⟩ := Option.map_eq_some_iff.mp hs
    cases he
    have hpos := pc.left_pos
    cases out with
    | none => exact rank_lt_of_left (Nat.lt_add_of_pos_right hpos)
    | some pc' =>
      have hless := ReapPc.step_left hp
      exact rank_lt_of_left (Nat.add_lt_add_left hless _)
  | returned => cases i <;> cases hs

/-- The rank of a call of the supervisor. -/
def SupervisorCall.rank : SupervisorCall → Rank
  | .start _ pc => CsmProxy.rank 0 0 pc.left
  | .reap _ pc => CsmProxy.rank 0 0 pc.left
  | .reapAll pc => pc.rank
  | .isAlive _ => CsmProxy.rank 0 0 1
  | .started .. | .reaped _ | .answered .. => CsmProxy.rank 0 0 0

theorem SupervisorCall.step_rank {me : Nat} {h h' : Host} {c c' : SupervisorCall} {i : Choice}
    (hs : c.step me h i = some (h', c')) : c'.rank < c.rank := by
  cases c with
  | start args pc =>
    obtain ⟨⟨g, out⟩, hp, he⟩ := Option.map_eq_some_iff.mp hs
    cases he
    cases out with
    | inl pc' => exact rank_lt_of_left (StartPc.step_left hp)
    | inr result => exact rank_lt_of_left pc.left_pos
  | reap id pc =>
    obtain ⟨⟨g, out⟩, hp, he⟩ := Option.map_eq_some_iff.mp hs
    cases he
    cases out with
    | some pc' => exact rank_lt_of_left (ReapPc.step_left hp)
    | none => exact rank_lt_of_left pc.left_pos
  | reapAll pc =>
    obtain ⟨⟨g, pc'⟩, hp, he⟩ := Option.map_eq_some_iff.mp hs
    cases he
    exact reapAllStep_rank hp
  | isAlive id =>
    cases i <;> cases hs
    exact rank_lt_of_left Nat.one_pos
  | _ => cases hs

/-- The rank of a `start_instance` call at the time `now`. -/
def StartInstancePc.rank (now : Nat) : StartInstancePc → Rank
  | .validate => CsmProxy.rank 2 0 10
  | .connected => CsmProxy.rank 2 0 9
  | .start pc => CsmProxy.rank 2 0 pc.left
  | .poll _ deadline => CsmProxy.rank 1 (deadline - now) 3
  | .alive _ deadline => CsmProxy.rank 1 (deadline - now) 2
  | .clock _ deadline => CsmProxy.rank 1 (deadline - now) 1
  | .sleep _ deadline wake => CsmProxy.rank 1 (deadline - wake) 4
  | .reap _ pc => CsmProxy.rank 0 0 pc.left
  | .returned _ => CsmProxy.rank 0 0 0

theorem StartInstanceCall.step_rank {me : Nat} {h h' : Host} {c c' : StartInstanceCall} {i : Choice}
    (hs : c.step me h i = some (h', c')) : c'.pc.rank h'.now < c.pc.rank h.now := by
  obtain ⟨args, pc, connectedAtSpawn, session⟩ := c
  cases pc with
  | validate =>
    cases i <;> simp only [step] at hs
    case run =>
      cases hs
      cases isValidInstanceId args.instanceId with
      | true => exact rank_lt_of_left (by decide)
      | false => exact rank_lt_of_phase (by decide)
    all_goals cases hs
  | connected =>
    cases i <;> cases hs
    exact rank_lt_of_left (Nat.lt_succ_self 8)
  | start pc =>
    obtain ⟨⟨g, out⟩, hp, he⟩ := Option.map_eq_some_iff.mp hs
    cases he
    cases out with
    | inl pc' => exact rank_lt_of_left (StartPc.step_left hp)
    | inr result => cases result <;> exact rank_lt_of_phase (by decide)
  | poll pid deadline =>
    cases i <;> simp only [step] at hs
    case run =>
      split at hs <;> cases hs
      · exact rank_lt_of_phase Nat.one_pos
      · exact rank_lt_of_left (by decide)
    all_goals cases hs
  | alive pid deadline =>
    cases i <;> simp only [step] at hs
    case run =>
      cases hs
      cases (h.supervisor.childAlive h.alive args.instanceId).1 with
      | true => exact rank_lt_of_left (by decide)
      | false => exact rank_lt_of_phase Nat.one_pos
    all_goals cases hs
  | clock pid deadline =>
    cases i <;> simp only [step] at hs
    case run =>
      cases hs
      by_cases hlate : deadline ≤ h.now
      · simp only [hlate, decide_true, if_true]
        exact rank_lt_of_phase Nat.one_pos
      · simp only [hlate, decide_false, Bool.false_eq_true, if_false]
        have hless : deadline - (h.now + millis 100) < deadline - h.now := by
          simp only [millis]
          omega
        exact rank_lt_of_rounds hless
    all_goals cases hs
  | sleep pid deadline wake =>
    cases i <;> simp only [step] at hs
    case run =>
      split at hs
      · rename_i hover
        cases hs
        exact rank_lt_of_le (Nat.sub_le_sub_left hover deadline) (by decide)
      · cases hs
    all_goals cases hs
  | reap err pc =>
    obtain ⟨⟨g, out⟩, hp, he⟩ := Option.map_eq_some_iff.mp hs
    cases he
    cases out with
    | some pc' => exact rank_lt_of_left (ReapPc.step_left hp)
    | none => exact rank_lt_of_left pc.left_pos
  | returned result => cases i <;> cases hs

/-- The sections to come. -/
def ShutdownPc.left : ShutdownPc → Nat
  | .enqueue pc => 4 + pc.left
  | .choose _ => 4
  | .reap _ _ pc => pc.left
  | .returned _ => 0

theorem ShutdownCall.step_left {me : Nat} {h h' : Host} {c c' : ShutdownCall} {i : Choice}
    (hs : c.step me h i = some (h', c')) : c'.pc.left < c.pc.left := by
  obtain ⟨instanceId, pc⟩ := c
  cases pc with
  | enqueue pc =>
    cases i <;> simp only [step] at hs
    case run =>
      split at hs <;> (rename_i he; cases hs)
      · exact Nat.add_lt_add_left (EnqueuePc.step_left he) 4
      · exact Nat.lt_add_of_pos_right pc.left_pos
    all_goals cases hs
  | choose queued =>
    cases i <;> simp only [step] at hs
    case run => split at hs <;> cases hs <;> simp [ShutdownPc.left, ReapPc.left]
    all_goals cases hs
  | reap queued id pc =>
    obtain ⟨⟨g, out⟩, hp, he⟩ := Option.map_eq_some_iff.mp hs
    cases he
    cases out with
    | some pc' => exact ReapPc.step_left hp
    | none => exact pc.left_pos
  | returned queued => cases i <;> cases hs

/-! ## Observing -/

/-- The rank of an `observe` call at the time `now`. -/
def ObserveCall.rank (now : Nat) (c : ObserveCall) : Rank :=
  match c.pc with
  | .default => CsmProxy.rank 2 0 9
  | .resolve _ => if c.polling then CsmProxy.rank 1 (c.deadline - now) 5 else CsmProxy.rank 2 0 8
  | .readMask => if c.polling then CsmProxy.rank 1 (c.deadline - now) 4 else CsmProxy.rank 2 0 7
  | .drain _ => if c.polling then CsmProxy.rank 1 (c.deadline - now) 3 else CsmProxy.rank 2 0 6
  | .floor => CsmProxy.rank 2 0 5
  | .check => CsmProxy.rank 1 (c.deadline - now) 2
  | .clock _ => CsmProxy.rank 1 (c.deadline - now) 1
  | .sleep wake => CsmProxy.rank 1 (c.deadline - wake) 6
  | .reply .. => CsmProxy.rank 0 0 1
  | .returned _ => CsmProxy.rank 0 0 0

/-- Only a call with a spec polls, and it has set its deadline. -/
structure ObserveCall.Polls (c : ObserveCall) : Prop where
  deadline : c.pc = .check ∨ (∃ matched, c.pc = .clock matched) ∨ (∃ wake, c.pc = .sleep wake) →
    c.polling = true
  spec : c.polling = true ∨ c.pc = .floor → c.spec.isSome = true

theorem ObserveCall.Polls.step {me : Nat} {h h' : Host} {c c' : ObserveCall} {i : Choice}
    (polls : c.Polls) (hs : c.step me h i = some (h', c')) : c'.Polls := by
  obtain ⟨spec, pc, id, polling, events, floor, deadline⟩ := c
  obtain ⟨hdeadline, hspec⟩ := polls
  cases step_cases hs with
  | drained hpc recv =>
    obtain rfl : pc = _ := hpc
    constructor
    · cases polling <;> cases spec <;> simp [afterDrain]
    · cases polling <;> cases spec <;> simp_all [afterDrain]
  | floor hpc waits =>
    obtain rfl : spec = _ := waits
    exact ⟨fun _ => rfl, fun _ => rfl⟩
  | check hpc waits | sleep hpc waits =>
    obtain rfl : spec = _ := waits
    obtain rfl : pc = _ := hpc
    exact ⟨fun _ => hdeadline (by simp), fun _ => rfl⟩
  | pop hpc recv =>
    obtain rfl : pc = _ := hpc
    exact ⟨by simp, by simpa using hspec⟩
  | named hpc | unnamed hpc | resolved hpc | unresolved hpc | readMask hpc | exit hpc | reply hpc
  | wake hpc =>
    obtain rfl : pc = _ := hpc
    exact ⟨by simp, by simpa using hspec⟩

/-- A section that does not take an envelope leaves less to do. -/
theorem ObserveCall.step_rank {me : Nat} {h h' : Host} {c c' : ObserveCall} {i : Choice}
    (polls : c.Polls) (hs : c.step me h i = some (h', c')) (hpops : h'.pops = h.pops) :
    c'.rank h'.now < c.rank h.now := by
  obtain ⟨spec, pc, id, polling, events, floor, deadline⟩ := c
  cases step_cases hs with
  | named hpc | unnamed hpc | resolved hpc | unresolved hpc | readMask hpc | check hpc | reply hpc
  | floor hpc | exit hpc =>
    obtain rfl : pc = _ := hpc
    cases polling <;> simp [ObserveCall.rank, rank_lt_iff]
  | pop hpc recv =>
    exact absurd (List.self_eq_append_right.mp hpops.symm) (List.cons_ne_nil _ _)
  | drained hpc recv =>
    obtain rfl : pc = _ := hpc
    cases polling <;> cases spec <;> simp [ObserveCall.rank, afterDrain, rank_lt_iff]
  | sleep hpc waits unmatched early =>
    obtain rfl : pc = _ := hpc
    have hless : deadline - (h.now + millis 25) < deadline - h.now := by
      simp only [millis]
      simp only at early
      omega
    exact rank_lt_of_rounds hless
  | @wake wake hpc late =>
    obtain rfl : pc = _ := hpc
    have hpolling : polling = true := polls.deadline (.inr (.inr ⟨wake, rfl⟩))
    subst hpolling
    exact rank_lt_of_le (Nat.sub_le_sub_left late deadline) (by decide)

/-! ## Streams -/

/-- The loop of `remove_if`: collected or not. -/
def RemovePc.phase : RemovePc → Nat
  | .entry => 2
  | .collect => 1
  | .next _ | .take .. => 0

/-- The sections to come in the loop of `remove_if`. -/
def RemovePc.left : RemovePc → Nat
  | .entry | .collect => 0
  | .next rest => 2 * rest.card + 1
  | .take _ rest => 2 * rest.card + 2

theorem RemovePc.step_rank {id : String} {token : Nat} {h h' : Host} {pc pc' : RemovePc}
    {i : Choice} (hs : pc.step id token h i = some (h', some pc')) (phase : Nat) :
    rank phase pc'.phase pc'.left < rank phase pc.phase pc.left := by
  have hsection := step_section hs
  generalize hout : some pc' = out at hsection
  cases hsection with
  | entry =>
    split at hout <;> cases hout
    exact rank_lt_of_rounds (by decide)
  | collect =>
    cases hout
    exact rank_lt_of_rounds Nat.one_pos
  | done => cases hout
  | @pick corr rest mem =>
    cases hout
    have hcard : (rest.erase corr).card < rest.card := Finset.card_erase_lt_of_mem mem
    refine rank_lt_of_left ?_
    simp only [left]
    omega
  | take =>
    cases hout
    exact rank_lt_of_left (Nat.lt_succ_self _)

theorem RemovePc.rank_pos (pc : RemovePc) : rank 0 0 0 < rank 0 pc.phase pc.left := by
  cases pc with
  | entry | collect => exact rank_lt_of_rounds (by decide)
  | next rest | take corr rest => exact rank_lt_of_left (Nat.succ_pos _)

/-- The sections to come. -/
def PushPc.left : PushPc → Nat
  | .complete => 4
  | .forget _ => 3
  | .reply _ => 2
  | .enqueue => 1

theorem PushPc.step_left {id : String} {msg : SimToServer} {h h' : Host} {pc pc' : PushPc}
    (hs : pc.step id msg h = (h', some pc')) : pc'.left < pc.left := by
  cases pc with
  | complete =>
    have hout := congrArg Prod.snd hs
    rw [step_complete] at hout
    cases htx : (h.instances.takeMatching msg).1 <;> rw [htx] at hout <;> cases hout <;> simp [left]
  | forget tx | reply tx => cases hs; simp [left]
  | enqueue => cases hs

/-- The rank of the handler of a stream, between two messages. -/
def SessionPc.rank : SessionPc → Rank
  | .allocToken => CsmProxy.rank 7 0 0
  | .insert => CsmProxy.rank 6 0 0
  | .owns _ => CsmProxy.rank 5 0 0
  | .heartbeat .. => CsmProxy.rank 4 0 0
  | .push _ sub => CsmProxy.rank 3 0 sub.left
  | .removeGoodbye sub => CsmProxy.rank 2 sub.phase sub.left
  | .leaving => CsmProxy.rank 1 0 0
  | .remove sub => CsmProxy.rank 0 sub.phase sub.left
  | .first | .refused _ | .next | .ended => CsmProxy.rank 0 0 0

/-- The handler waits for its stream, or it is over. -/
def SessionPc.atRest : SessionPc → Bool
  | .first | .refused _ | .next | .ended => true
  | _ => false

theorem Session.step_rank {h h' : Host} {s s' : Session} {i : Choice}
    (hs : s.step h i = some (h', s')) (busy : s.pc.atRest = false) : s'.pc.rank < s.pc.rank := by
  obtain ⟨dialler, register, token, received, pc⟩ := s
  cases step_section hs with
  | accept hpc | closed hpc | failed hpc | read hpc =>
    obtain rfl : pc = _ := hpc
    cases busy
  | allocToken hpc | insert hpc | replaced hpc | heartbeat hpc | leave hpc =>
    obtain rfl : pc = _ := hpc
    exact rank_lt_of_phase (by decide)
  | @owned item hpc =>
    obtain rfl : pc = .owns item := hpc
    unfold dispatch
    repeat' split
    all_goals exact rank_lt_of_phase (by decide)
  | @push msg sub _ out hpc call =>
    obtain rfl : pc = .push msg sub := hpc
    cases out with
    | some sub' => exact rank_lt_of_left (PushPc.step_left call)
    | none =>
      simp only [Option.elim_none, afterPush]
      split <;> exact rank_lt_of_phase (by decide)
  | @removeGoodbye sub _ _ out hpc call =>
    obtain rfl : pc = .removeGoodbye sub := hpc
    cases out with
    | some sub' => exact RemovePc.step_rank call 2
    | none => exact rank_lt_of_phase (by decide)
  | @remove sub _ _ out hpc call =>
    obtain rfl : pc = .remove sub := hpc
    cases out with
    | some sub' => exact RemovePc.step_rank call 0
    | none => exact sub.rank_pos

end CsmProxy
