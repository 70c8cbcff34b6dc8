import CsmProxy.Spawn.OwnKills

/-!
# The stages of a `start_instance` call

From its already-connected check to its return a call relies on the entry of its id:
an entry that appears in that window is taken for its child. The stages say where
the call is with respect to the window and to its spawn, and
`StartInstanceCall.step_stage` what one section does to them.
-/

namespace CsmProxy

open Foundations

inductive StartStage where
  /-- Before the check, or after a check that refuses the call. -/
  | outside
  /-- The id was free, and no child has been spawned. -/
  | before
  /-- The call has spawned a child with this pid. -/
  | after (pid : UInt32)
  /-- The call has given up or returned. -/
  | closed
deriving DecidableEq

/-- The call takes any entry of its id for its child. -/
def StartStage.Open : StartStage → Prop
  | .before | .after _ => True
  | _ => False

instance : DecidablePred StartStage.Open := fun stage => by
  cases stage <;> first | exact isFalse id | exact isTrue trivial

def StartPc.stage : StartPc → StartStage
  | .check true => .outside
  | .store _ pid => .after pid
  | .clear _ => .closed
  | _ => .before

/-- The stage in which a section of `start` leaves the call. -/
def StartPc.outStage : StartPc ⊕ Except SpawnError UInt32 → StartStage
  | .inl pc => pc.stage
  | .inr (.ok pid) => .after pid
  | .inr (.error _) => .closed

theorem StartPc.step_stage {args : StartArgs} {me : Nat} {h h' : Host} {pc : StartPc} {i : Choice}
    {out : StartPc ⊕ Except SpawnError UInt32} (hs : pc.step args me h i = some (h', out)) :
    (outStage out = pc.stage ∧ h'.process = h.process ∧ pc ≠ .exec) ∨ outStage out = .closed ∨
      pc = .exec ∧ ∃ child pid, out = .inl (.store child pid) ∧ h'.process =
        h.process.insert child { owner := me, instanceId := args.instanceId, pid := pid } := by
  cases step_section hs with
  | invalidId | notConfigured | alreadyConnected | alreadySpawned | cleared =>
    exact Or.inr (Or.inl rfl)
  | failed hop => exact Or.inr (Or.inl rfl)
  | checked | reserved | createDir | seedBook | seedSettings | stored =>
    exact Or.inl ⟨rfl, rfl, by simp⟩
  | @spawned child pid => exact Or.inr (Or.inr ⟨rfl, child, pid, rfl, rfl⟩)

namespace StartInstanceCall

def stage (c : StartInstanceCall) : StartStage :=
  match c.pc with
  | .validate | .connected => .outside
  | .start pc => pc.stage
  | .poll pid _ | .alive pid _ | .clock pid _ | .sleep pid _ _ => .after pid
  | .reap .. | .returned _ => .closed

/-- The call has returned this reply. -/
def Returned (c : StartInstanceCall) (reply : StartReply) : Prop := c.pc = .returned (.ok reply)

theorem Returned.closed {c : StartInstanceCall} {reply : StartReply} (h : c.Returned reply) :
    c.stage = .closed := by
  rw [stage, h]

/-- What one section of the call of task `me` does. -/
inductive StageStep (me : Nat) (h h' : Host) (c c' : StartInstanceCall) : Prop
  | stays (stage : c'.stage = c.stage) (process : h'.process = h.process)
      (flag : c'.connectedAtSpawn = c.connectedAtSpawn) (failed : ∀ reply, ¬ c'.Returned reply)
  | opens (stage : c.stage = .outside) (stage' : c'.stage = .before)
      (flag : c'.connectedAtSpawn = c.connectedAtSpawn) (host : h' = h)
      (free : connected h c.args.instanceId = false)
  | spawns (child : Nat) (pid : UInt32) (stage : c.stage = .before) (stage' : c'.stage = .after pid)
      (process : h'.process =
        h.process.insert child { owner := me, instanceId := c.args.instanceId, pid := pid })
      (flag : c'.connectedAtSpawn = connected h c.args.instanceId)
  | closes (stage' : c'.stage = .closed)
      (flag : c'.connectedAtSpawn = c.connectedAtSpawn ∨
        c.stage = .before ∧ c'.connectedAtSpawn = connected h c.args.instanceId)
      (failed : ∀ reply, ¬ c'.Returned reply)
  | reports (pid : UInt32) (snap : InstanceSnapshot) (stage : c.stage = .after pid) (host : h' = h)
      (get : h.instances.get c.args.instanceId = some snap)
      (next : c' = { c with pc := .returned (.ok (answer c.args pid snap)), session := some snap.token })

theorem step_args {me : Nat} {h h' : Host} {c c' : StartInstanceCall} {i : Choice}
    (hs : c.step me h i = some (h', c')) : c'.args = c.args := by
  obtain ⟨args, pc, connectedAtSpawn, session⟩ := c
  cases pc with
  | start pc | reap err pc =>
    obtain ⟨r, -, he⟩ := Option.map_eq_some_iff.mp hs
    cases he
    rfl
  | poll pid deadline | sleep pid deadline wake =>
    cases i <;> simp only [step] at hs
    all_goals (try split at hs) <;> cases hs <;> rfl
  | _ => cases i <;> cases hs <;> rfl

/-- The sections of `start`. -/
theorem step_start {me : Nat} {h h' : Host} {c c' : StartInstanceCall} {pc : StartPc} {i : Choice}
    (hpc : c.pc = .start pc) (hs : c.step me h i = some (h', c')) :
    ∃ out, pc.step c.args me h i = some (h', out) ∧ c'.stage = StartPc.outStage out ∧
      (∀ reply, ¬ c'.Returned reply) ∧ c'.connectedAtSpawn =
        if pc = .exec then connected h c.args.instanceId else c.connectedAtSpawn := by
  obtain ⟨args, pc', flag, session⟩ := c
  obtain rfl : pc' = .start pc := hpc
  obtain ⟨⟨g, out⟩, hp, he⟩ := Option.map_eq_some_iff.mp hs
  cases he
  refine ⟨out, hp, ?_, ?_, rfl⟩
  · cases out with
    | inl pc' => rfl
    | inr result => cases result <;> rfl
  · intro reply hr
    cases out with
    | inl pc' => cases hr
    | inr result => cases result <;> cases hr

/-- **Inversion.** What one section of a call does to its stage. -/
theorem step_stage {me : Nat} {h h' : Host} {c c' : StartInstanceCall} {i : Choice}
    (hs : c.step me h i = some (h', c')) : StageStep me h h' c c' := by
  obtain ⟨args, pc, flag, session⟩ := c
  cases pc with
  | validate =>
    cases i <;> cases hs
    cases hv : isValidInstanceId args.instanceId with
    | true => exact .stays (by simp [stage]) rfl rfl (by simp [Returned])
    | false => exact .closes (by simp [stage]) (Or.inl rfl) (by simp [Returned])
  | connected =>
    cases i <;> cases hs
    cases hfree : connected h args.instanceId with
    | true => exact .stays rfl rfl rfl fun reply hr => by cases hr
    | false => exact .opens rfl rfl rfl rfl hfree
  | start pc =>
    obtain ⟨out, hp, hstage, hfailed, hflag⟩ := step_start rfl hs
    rcases StartPc.step_stage hp with ⟨hsame, hprocess, hpc⟩ | hclosed | ⟨rfl, child, pid, rfl, hprocess⟩
    · exact .stays (hstage.trans hsame) hprocess (hflag.trans (if_neg hpc)) hfailed
    · refine .closes (hstage.trans hclosed) ?_ hfailed
      by_cases hpc : pc = .exec
      · subst hpc
        exact Or.inr ⟨rfl, hflag⟩
      · exact Or.inl (hflag.trans (if_neg hpc))
    · exact .spawns child pid rfl hstage hprocess hflag
  | poll pid deadline =>
    cases i <;> simp only [step] at hs
    case run =>
      split at hs <;> cases hs
      · rename_i snap hget
        exact .reports pid snap rfl rfl hget rfl
      · exact .stays rfl rfl rfl fun reply hr => by cases hr
    all_goals cases hs
  | alive pid deadline =>
    cases i <;> simp only [step] at hs
    case run =>
      generalize h.supervisor.childAlive h.alive args.instanceId = r at hs
      obtain ⟨up, supervisor⟩ := r
      cases up <;> cases hs
      · exact .closes rfl (Or.inl rfl) fun reply hr => by cases hr
      · exact .stays rfl rfl rfl fun reply hr => by cases hr
    all_goals cases hs
  | clock pid deadline =>
    cases i <;> simp only [step] at hs
    case run =>
      generalize decide (deadline ≤ h.now) = late at hs
      cases late <;> cases hs
      · exact .stays rfl rfl rfl fun reply hr => by cases hr
      · exact .closes rfl (Or.inl rfl) fun reply hr => by cases hr
    all_goals cases hs
  | sleep pid deadline wake =>
    cases i <;> simp only [step] at hs
    case run =>
      split at hs <;> cases hs
      exact .stays rfl rfl rfl fun reply hr => by cases hr
    all_goals cases hs
  | reap err pc =>
    obtain ⟨⟨g, out⟩, hp, he⟩ := Option.map_eq_some_iff.mp hs
    cases he
    cases out with
    | none => exact .closes rfl (Or.inl rfl) fun reply hr => by cases hr
    | some pc' => exact .closes rfl (Or.inl rfl) fun reply hr => by cases hr
  | returned result => cases i <;> cases hs

end StartInstanceCall

end CsmProxy
