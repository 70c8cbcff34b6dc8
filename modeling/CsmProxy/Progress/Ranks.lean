import CsmProxy.Observe.Sections
import CsmProxy.Requests.Sections
import CsmProxy.Sessions.Sections
import CsmProxy.Spawn.Sections
import Mathlib.Data.Prod.Lex

/-!
# How much a task has left to do

Every task of the server has a rank that each of its sections lowers, until the task rests
(`ServerTask.atRest`): the phase it is in, the time to its deadline where it polls, and the
sections to come. A section of another task, or time that passes, does not raise it.

Two loops have no bound of their own. `observe` takes envelopes for as long as there are any,
so a section that takes one may keep the rank (`ServerTask.step_rank`). The handler of a
stream rests where it waits for the next message.
-/

namespace CsmProxy

open Foundations

/-- The phase, what is left of a loop, and the sections to come; the first counts most. -/
abbrev Rank := ℕ ×ₗ ℕ ×ₗ ℕ

/-- The rank with these parts. -/
def rank (phase rounds sections : Nat) : Rank := toLex (phase, toLex (rounds, sections))

theorem rank_lt_iff {p p' r r' s s' : Nat} :
    rank p r s < rank p' r' s' ↔ p < p' ∨ (p = p' ∧ (r < r' ∨ (r = r' ∧ s < s'))) := by
  simp only [rank, Prod.Lex.toLex_lt_toLex]

theorem rank_le_iff {p p' r r' s s' : Nat} :
    rank p r s ≤ rank p' r' s' ↔ p < p' ∨ (p = p' ∧ (r < r' ∨ (r = r' ∧ s ≤ s'))) := by
  simp only [rank, Prod.Lex.toLex_le_toLex]

/-- Fewer sections to come in the same phase. -/
theorem rank_lt_of_left {phase rounds s s' : Nat} (h : s < s') :
    rank phase rounds s < rank phase rounds s' :=
  rank_lt_iff.mpr (.inr ⟨rfl, .inr ⟨rfl, h⟩⟩)

/-- A later phase. -/
theorem rank_lt_of_phase {p p' r r' s s' : Nat} (h : p < p') : rank p r s < rank p' r' s' :=
  rank_lt_iff.mpr (.inl h)

/-- Less time to the deadline. -/
theorem rank_lt_of_rounds {phase r r' s s' : Nat} (h : r < r') : rank phase r s < rank phase r' s' :=
  rank_lt_iff.mpr (.inr ⟨rfl, .inl h⟩)

/-- No more time to the deadline, and fewer sections to come. -/
theorem rank_lt_of_le {phase r r' s s' : Nat} (hr : r ≤ r') (hs : s < s') :
    rank phase r s < rank phase r' s' := by
  rcases Nat.lt_or_eq_of_le hr with hless | rfl
  · exact rank_lt_of_rounds hless
  · exact rank_lt_of_left hs

/-! ## Requests -/

/-- The sections to come. -/
def EnqueuePc.left : EnqueuePc → Nat
  | .default => 4
  | .resolve _ => 3
  | .nextCorr _ => 2
  | .trySend .. => 1

theorem EnqueuePc.step_left {ackRequested : Bool} {payload : ServerPayload} {h h' : Host}
    {pc pc' : EnqueuePc} (hs : pc.step ackRequested payload h = (h', .inl pc')) :
    pc'.left < pc.left := by
  have hsection := step_section ackRequested payload h pc
  rw [hs] at hsection
  cases hsection <;> simp [left]

theorem EnqueuePc.left_pos (pc : EnqueuePc) : 0 < pc.left := by cases pc <;> simp [left]

/-- The sections to come. -/
def SendPc.left : SendPc → Nat
  | .get => 7
  | .insertWaiter => 6
  | .insertInstance => 5
  | .trySend => 4
  | .await _ => 3
  | .forget _ => 2
  | .take _ => 1
  | .returned _ => 0

theorem SendCall.step_left {me : Nat} {h h' : Host} {c c' : SendCall} {i : Choice}
    (hs : c.step me h i = some (h', c')) : c'.pc.left < c.pc.left := by
  cases step_section hs with
  | connected pc | unknown pc | insertWaiter pc | insertInstance pc | queued pc | refused pc
  | forget pc | take pc | answered pc | disconnected pc | timedOut pc =>
    rw [pc]
    simp [SendPc.left]

/-- The sections to come. -/
def WaitPc.left : WaitPc → Nat
  | .default => 11
  | .resolve _ => 10
  | .nextCorr _ => 9
  | .send call => 1 + call.pc.left
  | .read .. => 1

theorem WaitPc.step_left {tx : Nat} {ackRequested : Bool} {payload : ServerPayload} {w : Waiting}
    {h h' : Host} {pc pc' : WaitPc} {i : Choice}
    (hs : pc.step tx ackRequested payload w h i = some (h', .inl pc')) : pc'.left < pc.left := by
  have hsection := step_section hs
  generalize hout : (Sum.inl pc' : WaitPc ⊕ Except ToolError ToolReply) = out at hsection
  cases hsection with
  | default | resolved | drawn =>
    cases hout
    simp [left, callFor, SendPc.left]
  | noDefault | unresolved | read => cases hout
  | @send call call' _ _ hcall =>
    have hless := SendCall.step_left hcall
    unfold afterSend at hout
    split at hout <;> cases hout <;> simp only [left] <;> omega

theorem WaitPc.left_pos (pc : WaitPc) : 0 < pc.left := by
  cases pc <;> simp only [left] <;> omega

/-- The sections to come. -/
def RequestPc.left : RequestPc → Nat
  | .enqueue pc => pc.left
  | .wait _ pc => pc.left

theorem RequestPc.step_left {tx : Nat} {r : ToolRequest} {h h' : Host} {pc pc' : RequestPc}
    {i : Choice} (hs : pc.step tx r h i = some (h', .inl pc')) : pc'.left < pc.left := by
  cases pc with
  | enqueue q =>
    cases i <;> simp only [step] at hs
    case run =>
      obtain ⟨-, hout⟩ := Prod.mk.inj (Option.some.inj hs)
      cases hq : q.step r.ackRequested r.payload h with
      | mk g out =>
        rw [hq] at hout
        cases out with
        | inl q' =>
          cases hout
          exact EnqueuePc.step_left hq
        | inr result => cases hout
    all_goals cases hs
  | wait w pc =>
    obtain ⟨⟨g, out⟩, hpc, he⟩ := Option.map_eq_some_iff.mp hs
    cases out with
    | inl pc₁ =>
      cases he
      exact WaitPc.step_left hpc
    | inr result => cases he

theorem RequestPc.left_pos (pc : RequestPc) : 0 < pc.left := by
  cases pc with
  | enqueue pc => exact pc.left_pos
  | wait w pc => exact pc.left_pos

theorem ToolRequest.left_start (r : ToolRequest) (id : Option String) : (r.start id).left ≤ 11 := by
  unfold start
  cases r.wait <;> cases id <;> simp [RequestPc.left, EnqueuePc.left, WaitPc.left]

/-- The sections to come. -/
def ToolTask.left (c : ToolTask) : Nat :=
  match c.state with
  | .inl pc => pc.left
  | .inr _ => 0

theorem ToolTask.step_left {me : Nat} {h h' : Host} {c c' : ToolTask} {i : Choice}
    (hs : c.step me h i = some (h', c')) : c'.left < c.left := by
  obtain ⟨r, state⟩ := c
  cases state with
  | inr result => cases hs
  | inl pc =>
    obtain ⟨⟨g, out⟩, hpc, he⟩ := Option.map_eq_some_iff.mp hs
    cases he
    cases out with
    | inl pc' => exact RequestPc.step_left hpc
    | inr result => exact pc.left_pos

/-- The sections to come at most: a step of the batch takes no more than `11`. -/
def BatchPc.left (steps : List InjectBatchStep) : BatchPc → Nat
  | .default => 12 * steps.length + 2
  | .resolve _ => 12 * steps.length + 1
  | .step _ _ _ _ pc rest => 12 * rest.length + pc.left
  | .returned _ => 0

theorem BatchPc.left_enter (shared : SharedParams) (id : String) (index : Nat)
    (results : List BatchEntry) (steps rest : List InjectBatchStep) :
    (enter shared id index results rest).left steps ≤ 12 * rest.length := by
  cases rest with
  | nil => exact Nat.le_refl _
  | cons first rest =>
    simp only [enter]
    cases first.request shared with
    | error err => exact Nat.zero_le _
    | ok r =>
      have hstart := r.left_start (some id)
      simp only [left, List.length_cons]
      omega

theorem BatchCall.step_left {me : Nat} {h h' : Host} {c c' : BatchCall} {i : Choice}
    (hs : c.step me h i = some (h', c')) : c'.pc.left c'.steps < c.pc.left c.steps := by
  obtain ⟨shared, steps, pc⟩ := c
  cases pc with
  | default =>
    cases i <;> simp only [step] at hs
    case run => split at hs <;> cases hs <;> simp [BatchPc.left]
    all_goals cases hs
  | resolve id =>
    cases i <;> simp only [step] at hs
    case run =>
      split at hs
      · rename_i snap hr
        cases hs
        exact Nat.lt_succ_of_le (BatchPc.left_enter ..)
      · cases hs
        exact Nat.succ_pos _
    all_goals cases hs
  | step id index results r pc rest =>
    obtain ⟨⟨g, out⟩, hpc, he⟩ := Option.map_eq_some_iff.mp hs
    cases he
    have hpos := pc.left_pos
    cases out with
    | inl pc' =>
      have hless := RequestPc.step_left hpc
      exact Nat.add_lt_add_left hless _
    | inr result =>
      cases result with
      | error err => exact Nat.add_pos_right _ hpos
      | ok value =>
        have hrest : (BatchPc.enter shared id (index + 1) (results ++ [⟨index, .ok value⟩])
          rest).left steps ≤ 12 * rest.length := BatchPc.left_enter ..
        exact hrest.trans_lt (Nat.lt_add_of_pos_right hpos)
  | returned result => cases i <;> cases hs

/-- The sections to come. -/
def ViewPc.left : ViewPc → Nat
  | .default => 7
  | .resolve _ => 6
  | .enqueue _ pc => 2 + pc.left
  | .setReadMask .. => 2
  | .setExclude .. => 1
  | .returned _ => 0

theorem ViewCall.step_left {h h' : Host} {c c' : ViewCall} {i : Choice}
    (hs : c.step h i = some (h', c')) : c'.pc.left < c.pc.left := by
  obtain ⟨paths, exclude, pc⟩ := c
  cases i with
  | run =>
    cases pc with
    | enqueue id pc =>
      have hpos := pc.left_pos
      simp only [step] at hs
      split at hs <;> (rename_i he; cases hs; simp only [ViewPc.left])
      · have hless := EnqueuePc.step_left he
        omega
      · omega
      · omega
    | default | resolve id =>
      simp only [step] at hs
      split at hs <;> (cases hs; simp [ViewPc.left, EnqueuePc.left])
    | setReadMask id corr | setExclude id corr => cases hs; simp [ViewPc.left]
    | returned result => cases hs
  | _ => cases pc <;> cases hs

/-- The sections to come. -/
def EnqueueCall.left (c : EnqueueCall) : Nat :=
  match c.result with
  | none => c.pc.left
  | some _ => 0

theorem EnqueueCall.step_left {h h' : Host} {c c' : EnqueueCall} {i : Choice}
    (hs : c.step h i = some (h', c')) : c'.left < c.left := by
  obtain ⟨ack, payload, pc, result⟩ := c
  cases i with
  | run =>
    cases result with
    | none =>
      simp only [step] at hs
      split at hs <;> (rename_i he; cases hs)
      · exact EnqueuePc.step_left he
      · exact pc.left_pos
    | some result => cases hs
  | _ => cases result <;> cases hs

end CsmProxy
