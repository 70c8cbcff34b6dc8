import CsmProxy.Foundations.History
import CsmProxy.Mcp.ToolSections
import CsmProxy.Sessions.Ownership
import CsmProxy.Views.WireFilter

/-!
# The view on the host and the view on the wire

`set_session_view_json` queues its `SetSessionView`, stores the mask and stores the
exclude list in three sections. Two calls can so queue their envelopes in one order and
store their views in the other.

The runs are recorded: `ViewEvent.told` is a `SetSessionView` that was queued,
`ViewEvent.connected` a new session. `currentTold` is what the simulator of the current
session was told last. The host agrees with it as long as nobody stores a view over the
one that was told last (`viewsAgree_of_storesInOrder`).
-/

namespace CsmProxy

open Foundations

/-! ## What the simulators were told -/

/-- A `SetSessionView` on an outbound queue, and the call that put it there. -/
structure Told where
  task : Nat
  paths : List String
  excludeLogComponents : List String
  envelope : ServerToSim
deriving DecidableEq

inductive ViewEvent where
  /-- A session for `id` was inserted. -/
  | connected (id : String)
  | told (id : String) (told : Told)
deriving DecidableEq

namespace ViewCall

/-- The envelope of the call. -/
def envelope (c : ViewCall) (corr : UInt64) : ServerToSim where
  corr := corr
  ackRequested := false
  payload := some (.setSessionView (wireSessionViewPaths c.paths) c.excludeLogComponents)

/-- The envelope of the call of task `me`, when it is queued under `corr`. -/
def told (me : Nat) (c : ViewCall) (corr : UInt64) : Told where
  task := me
  paths := c.paths
  excludeLogComponents := c.excludeLogComponents
  envelope := c.envelope corr

end ViewCall

/-- The event that a section of the proxy is. -/
def noteView : Note Host Task Choice ViewEvent := fun me h t _ =>
  match t with
  | .session s => if s.pc = .insert then some (.connected s.register.instanceId) else none
  | .view c =>
    match c.pc with
    | .enqueue _ (.trySend id corr) =>
      match h.instances.trySend id (c.envelope corr) with
      | .ok _ => some (.told id (c.told me corr))
      | .error _ => none
    | _ => none
  | _ => none

/-- The proxy with the history of its views. -/
def viewHistory : Pool (Host × List ViewEvent) Task Choice := proxy.recording noteView

/-- What was queued last for the session of `id`. -/
def currentTold (id : String) : List ViewEvent → Option Told
  | [] => none
  | .connected id' :: log => if id' = id then none else currentTold id log
  | .told id' told :: log => if id' = id then some told else currentTold id log

/-- No view call is between its enqueue and its return. -/
def ViewsSettled (task : Nat → Task) : Prop :=
  ∀ t call, task t = .view call →
    match call.pc with
    | .enqueue .. | .setReadMask .. | .setExclude .. => False
    | _ => True

/-- When no view call is under way, every session that was told a view has the view that
it was told last. -/
def ViewsAgree (c : Config (Host × List ViewEvent) Task) : Prop :=
  ViewsSettled c.task → ∀ id inst told, c.shared.1.instances.inner.lookup id = some inst →
    currentTold id c.shared.2 = some told →
      inst.readMask = told.paths ∧ inst.excludeLogComponents = told.excludeLogComponents ∧
        told.envelope.payload = some (.setSessionView (wireSessionViewPaths inst.readMask)
          inst.excludeLogComponents)

/-! ## The condition -/

/-- The task has yet to store its mask. -/
def Task.maskPending : Task → Bool
  | .view c =>
    match c.pc with
    | .setReadMask .. => true
    | _ => false
  | _ => false

/-- The task has yet to store its exclude list. -/
def Task.excludePending : Task → Bool
  | .view c =>
    match c.pc with
    | .setReadMask .. | .setExclude .. => true
    | _ => false
  | _ => false

/-- When the task is about to store a mask on a session: the call whose view was told last
there has yet to store its own, or it is the same mask. The same for an exclude list. -/
def storesInOrder (c : Config (Host × List ViewEvent) Task) (me : Nat) : Bool :=
  match c.task me with
  | .view call =>
    match call.pc with
    | .setReadMask id _ => (currentTold id c.shared.2).all fun told =>
        (c.task told.task).maskPending || told.paths = call.paths
    | .setExclude id _ => (currentTold id c.shared.2).all fun told =>
        (c.task told.task).excludePending || told.excludeLogComponents = call.excludeLogComponents
    | _ => true
  | _ => true

def StoresInOrder : Pool.Guard (Host × List ViewEvent) Task Choice :=
  fun c me _ => storesInOrder c me = true

instance (c : Config (Host × List ViewEvent) Task) (me : Nat) (i : Choice) :
    Decidable (StoresInOrder c me i) := inferInstanceAs (Decidable (_ = true))

/-! ## What a section does to the views -/

/-- Every entry after is one from before, under the same view. -/
def InstanceMap.SameViews (id : String) (m m' : InstanceMap) : Prop :=
  ∀ inst', m'.inner.lookup id = some inst' →
    ∃ inst, m.inner.lookup id = some inst ∧ inst.SameView inst'

namespace InstanceMap.SameViews

variable {id : String} {m m' : InstanceMap}

theorem of_lookup (h : m'.inner.lookup id = m.inner.lookup id) : SameViews id m m' :=
  fun inst' hid' => ⟨inst', h ▸ hid', rfl, rfl, rfl⟩

theorem of_serves (h : m.Serves m') : SameViews id m m' := by
  intro inst' hid'
  obtain ⟨inst, hid, hs⟩ := exists_of_rel (h.entry id) hid'
  exact ⟨inst, hid, hs.token, hs.readMask, hs.excludeLogComponents⟩

theorem of_modify {id' : String} {f : Instance → Instance}
    (hf : ∀ inst : Instance, inst.SameView (f inst)) : SameViews id m (m.modify id' f) := by
  intro inst' hid'
  obtain ⟨inst, hid, rfl | ⟨-, rfl⟩⟩ := HashMap.of_lookup_modify hid'
  · exact ⟨inst', hid, rfl, rfl, rfl⟩
  · exact ⟨inst, hid, hf inst⟩

end InstanceMap.SameViews

/-- A section of a stream's handler changes no view, except that it inserts its session. -/
theorem Session.step_sameViews {h h' : Host} {s s' : Session} {i : Choice}
    (hs : s.step h i = some (h', s')) {id : String}
    (hnew : ¬ (s.pc = .insert ∧ s.register.instanceId = id)) :
    InstanceMap.SameViews id h.instances h'.instances := by
  rcases Session.step_cases hs with ⟨hi, -, -⟩ | ⟨msg, -, hmap, -⟩ | ⟨msg, -, hmap, -⟩ |
    ⟨-, hmap, -⟩ | ⟨hpc, hmap, -⟩ | ⟨hb, msg, -, hmap, -⟩ | ⟨-, hmap, -⟩
  · exact .of_lookup (by rw [hi])
  · exact .of_lookup (by rw [hmap])
  · rw [hmap]
    exact .of_modify fun inst => inst.enqueueInbound_sameView msg
  · rw [hmap]
    exact .of_lookup rfl
  · rw [hmap]
    refine .of_lookup ?_
    change Finmap.lookup id (h.instances.inner.insert s.register.instanceId _) = _
    rw [HashMap.lookup_insert_ite, if_neg fun he => hnew ⟨hpc, he.symm⟩]
  · rw [hmap]
    refine .of_modify fun inst => ?_
    split <;> exact ⟨rfl, rfl, rfl⟩
  · rw [hmap]
    intro inst' hid'
    exact ⟨inst', (InstanceMap.lookup_removeEntry hid').1, rfl, rfl, rfl⟩

/-- A section of a task that is no view call notes at most a new session, keeps the views
of the others, and the task stays no view call. -/
theorem Task.step_sameViews {me : Nat} {h h' : Host} {t t' : Task} {i : Choice}
    (hs : t.step me h i = some (h', t')) (hv : ∀ c, t ≠ .view c) {id : String}
    (hnew : noteView me h t i ≠ some (.connected id)) :
    InstanceMap.SameViews id h.instances h'.instances := by
  by_cases ht : ∃ s, t = .session s
  · obtain ⟨s, rfl⟩ := ht
    obtain ⟨s', -, hstep⟩ := Task.step_session hs
    refine Session.step_sameViews hstep ?_
    rintro ⟨hpc, rfl⟩
    exact hnew (if_pos hpc)
  · exact .of_serves (Task.step_serves hs (fun s he => ht ⟨s, he⟩) hv)

theorem Task.step_not_view {me : Nat} {h h' : Host} {t t' : Task} {i : Choice}
    (hs : t.step me h i = some (h', t')) (hv : ∀ c, t ≠ .view c) : ∀ c, t' ≠ .view c := by
  rintro c rfl
  cases t with
  | view c => exact hv c rfl
  | _ =>
    obtain ⟨_, -, he⟩ := Option.map_eq_some_iff.mp hs
    cases he

/-! ## The sections of a view call -/

namespace ViewCall

/-- The call has yet to queue its envelope, and its `enqueue` is for the id it resolved. -/
def Unsent (c : ViewCall) : Prop :=
  match c.pc with
  | .default | .resolve _ => True
  | .enqueue id (.resolve id') | .enqueue id (.nextCorr id') | .enqueue id (.trySend id' _) => id' = id
  | .enqueue _ .default => False
  | .setReadMask .. | .setExclude .. | .returned _ => False

/-- The call is over without having queued anything. -/
def Failed (c : ViewCall) : Prop := ∃ err, c.pc = .returned (.error err)

/-- **Inversion.** One section of a view call that has not queued its envelope yet: it
goes on and changes no entry, or it queues the envelope. -/
theorem step_unsent {me : Nat} {h h' : Host} {c c' : ViewCall} {i : Choice}
    (hkey : h.instances.KeyedById) (hc : c.Unsent) (hs : c.step h i = some (h', c')) :
    (h'.instances.inner = h.instances.inner ∧ (c'.Unsent ∨ c'.Failed) ∧
        noteView me h (.view c) i = none) ∨
      ∃ id corr, c'.pc = .setReadMask id corr ∧ h.instances.Serves h'.instances ∧
        c'.paths = c.paths ∧ c'.excludeLogComponents = c.excludeLogComponents ∧
        noteView me h (.view c) i = some (.told id (c.told me corr)) := by
  obtain ⟨paths, exclude, pc⟩ := c
  cases i with
  | run =>
    cases pc with
    | default =>
      simp only [step] at hs
      split at hs <;> cases hs
      · exact .inl ⟨rfl, .inl trivial, rfl⟩
      · exact .inl ⟨rfl, .inr ⟨_, rfl⟩, rfl⟩
    | resolve id =>
      simp only [step] at hs
      split at hs <;> cases hs
      · exact .inl ⟨rfl, .inl rfl, rfl⟩
      · exact .inl ⟨rfl, .inr ⟨_, rfl⟩, rfl⟩
    | enqueue id pc =>
      cases pc with
      | default => exact hc.elim
      | resolve id' =>
        obtain rfl : id' = id := hc
        simp only [step, EnqueuePc.step] at hs
        cases hr : h.instances.resolve id' with
        | error err =>
          rw [hr] at hs
          cases hs
          exact .inl ⟨rfl, .inr ⟨_, rfl⟩, rfl⟩
        | ok snap =>
          rw [hr] at hs
          cases hs
          exact .inl ⟨rfl, .inl (hkey.resolve hr).2, rfl⟩
      | nextCorr id' =>
        obtain rfl : id' = id := hc
        cases hs
        exact .inl ⟨rfl, .inl rfl, rfl⟩
      | trySend id' corr =>
        obtain rfl : id' = id := hc
        simp only [step, EnqueuePc.step] at hs
        cases hsend : h.instances.trySend id'
            (envelope ⟨paths, exclude, .enqueue id' (.trySend id' corr)⟩ corr) with
        | error err =>
          have hnote : noteView me h (.view ⟨paths, exclude, .enqueue id' (.trySend id' corr)⟩)
              .run = none := by simp only [noteView, hsend]
          rw [envelope] at hsend
          rw [hsend] at hs
          cases err <;> (cases hs; exact .inl ⟨rfl, .inr ⟨_, rfl⟩, hnote⟩)
        | ok sent =>
          have hnote : noteView me h (.view ⟨paths, exclude, .enqueue id' (.trySend id' corr)⟩)
              .run = some (.told id' (told me ⟨paths, exclude, .enqueue id' (.trySend id' corr)⟩
                corr)) := by simp only [noteView, hsend]
          have hserves := InstanceMap.trySend_serves hsend
          rw [envelope] at hsend
          rw [hsend] at hs
          cases hs
          exact .inr ⟨id', corr, rfl, hserves, rfl, rfl, hnote⟩
    | setReadMask id corr => exact hc.elim
    | setExclude id corr => exact hc.elim
    | returned result => exact hc.elim
  | _ => cases pc <;> cases hs

end ViewCall

/-! ## The invariant -/

/-- How far the entry of `id` follows the view `told`, by where its call is. -/
inductive Follows (id : String) (m : InstanceMap) (told : Told) (call : ViewCall) : Prop
  | queued (corr : UInt64) (pc : call.pc = .setReadMask id corr)
  | masked (corr : UInt64) (pc : call.pc = .setExclude id corr)
      (readMask : ∀ inst, m.inner.lookup id = some inst → inst.readMask = told.paths)
  | stored (result : String × UInt64) (pc : call.pc = .returned (.ok result))
      (readMask : ∀ inst, m.inner.lookup id = some inst → inst.readMask = told.paths)
      (excluded : ∀ inst, m.inner.lookup id = some inst →
        inst.excludeLogComponents = told.excludeLogComponents)

namespace Follows

variable {id : String} {m m' : InstanceMap} {told : Told} {call : ViewCall}

theorem sameViews (h : Follows id m told call) (hm : InstanceMap.SameViews id m m') :
    Follows id m' told call := by
  have hmask : (∀ inst, m.inner.lookup id = some inst → inst.readMask = told.paths) →
      ∀ inst, m'.inner.lookup id = some inst → inst.readMask = told.paths := by
    intro hold inst' hid'
    obtain ⟨inst, hid, hsame⟩ := hm inst' hid'
    exact hsame.readMask.trans (hold inst hid)
  cases h with
  | queued corr pc => exact .queued corr pc
  | masked corr pc readMask => exact .masked corr pc (hmask readMask)
  | stored result pc readMask excluded =>
    refine .stored result pc (hmask readMask) fun inst' hid' => ?_
    obtain ⟨inst, hid, hsame⟩ := hm inst' hid'
    exact hsame.excludeLogComponents.trans (excluded inst hid)

/-- Another call stores its mask. -/
theorem setReadMask (h : Follows id m told call) {paths : List String}
    (hp : (∃ corr, call.pc = .setReadMask id corr) ∨ told.paths = paths) :
    Follows id (m.setReadMask id paths) told call := by
  rcases hp with ⟨corr, hpc⟩ | rfl
  · exact .queued corr hpc
  have hmask : ∀ inst', (m.setReadMask id told.paths).inner.lookup id = some inst' →
      inst'.readMask = told.paths := by
    intro inst' hid'
    obtain ⟨inst, -, rfl⟩ := HashMap.of_lookup_modify_self hid'
    rfl
  cases h with
  | queued corr pc => exact .queued corr pc
  | masked corr pc readMask => exact .masked corr pc hmask
  | stored result pc readMask excluded =>
    refine .stored result pc hmask fun inst' hid' => ?_
    obtain ⟨inst, hid, rfl⟩ := HashMap.of_lookup_modify_self hid'
    exact excluded inst hid

/-- Another call stores its exclude list. -/
theorem setExclude (h : Follows id m told call) {exclude : List String}
    (he : (∃ corr, call.pc = .setReadMask id corr) ∨ (∃ corr, call.pc = .setExclude id corr) ∨
      told.excludeLogComponents = exclude) :
    Follows id (m.setExcludeLogComponents id exclude) told call := by
  have hmask : (∀ inst, m.inner.lookup id = some inst → inst.readMask = told.paths) →
      ∀ inst', (m.setExcludeLogComponents id exclude).inner.lookup id = some inst' →
        inst'.readMask = told.paths := by
    intro hold inst' hid'
    obtain ⟨inst, hid, rfl⟩ := HashMap.of_lookup_modify_self hid'
    exact hold inst hid
  cases h with
  | queued corr pc => exact .queued corr pc
  | masked corr pc readMask => exact .masked corr pc (hmask readMask)
  | stored result pc readMask excluded =>
    rcases he with ⟨corr, hpc⟩ | ⟨corr, hpc⟩ | rfl
    · rw [pc] at hpc
      cases hpc
    · rw [pc] at hpc
      cases hpc
    · refine .stored result pc (hmask readMask) fun inst' hid' => ?_
      obtain ⟨inst, -, rfl⟩ := HashMap.of_lookup_modify_self hid'
      rfl

end Follows

section

variable {c : Config (Host × List ViewEvent) Task} {me : Nat} {i : Choice} {m : InstanceMap}
  {paths excluded : List String} {id : String} {corr : UInt64} {told : Told} {call : ViewCall}

/-- A mask stored in order is that of the view told last, or its call has yet to store it. -/
theorem StoresInOrder.mask (guard : StoresInOrder c me i)
    (ht : c.task me = .view ⟨paths, excluded, .setReadMask id corr⟩)
    (htold : currentTold id c.shared.2 = some told) (hcall : c.task told.task = .view call)
    (hf : Follows id m told call) :
    (∃ corr, call.pc = .setReadMask id corr) ∨ told.paths = paths := by
  unfold StoresInOrder storesInOrder at guard
  rw [ht] at guard
  simp only [htold, Option.all_some, hcall, Task.maskPending] at guard
  rcases Bool.or_eq_true_iff.mp guard with hpending | heq
  · left
    cases hf with
    | queued corr' pc => exact ⟨corr', pc⟩
    | masked corr' pc _ => rw [pc] at hpending; cases hpending
    | stored result pc _ _ => rw [pc] at hpending; cases hpending
  · exact .inr (of_decide_eq_true heq)

/-- The same for an exclude list. -/
theorem StoresInOrder.exclude (guard : StoresInOrder c me i)
    (ht : c.task me = .view ⟨paths, excluded, .setExclude id corr⟩)
    (htold : currentTold id c.shared.2 = some told) (hcall : c.task told.task = .view call)
    (hf : Follows id m told call) :
    (∃ corr, call.pc = .setReadMask id corr) ∨ (∃ corr, call.pc = .setExclude id corr) ∨
      told.excludeLogComponents = excluded := by
  unfold StoresInOrder storesInOrder at guard
  rw [ht] at guard
  simp only [htold, Option.all_some, hcall, Task.excludePending] at guard
  rcases Bool.or_eq_true_iff.mp guard with hpending | heq
  · cases hf with
    | queued corr' pc => exact .inl ⟨corr', pc⟩
    | masked corr' pc _ => exact .inr (.inl ⟨corr', pc⟩)
    | stored result pc _ _ => rw [pc] at hpending; cases hpending
  · exact .inr (.inr (of_decide_eq_true heq))

end

/-- The call has queued its envelope or is over. -/
def ViewCall.Sent (c : ViewCall) : Prop :=
  match c.pc with
  | .setReadMask .. | .setExclude .. | .returned _ => True
  | _ => False

theorem Follows.sent {id : String} {m : InstanceMap} {told : Told} {call : ViewCall}
    (h : Follows id m told call) : call.Sent := by
  unfold ViewCall.Sent
  cases h with
  | queued corr pc => rw [pc]; trivial
  | masked corr pc _ => rw [pc]; trivial
  | stored result pc _ _ => rw [pc]; trivial

theorem ViewCall.Unsent.not_sent {c : ViewCall} (h : c.Unsent) : ¬ c.Sent := by
  intro hs
  unfold Unsent at h
  unfold Sent at hs
  split at hs <;> simp_all

/-- The host follows the view `told` of `id`. -/
structure FollowsTold (task : Nat → Task) (m : InstanceMap) (id : String) (told : Told) : Prop where
  payload : told.envelope.payload =
    some (.setSessionView (wireSessionViewPaths told.paths) told.excludeLogComponents)
  call : ∃ call, task told.task = .view call ∧ call.paths = told.paths ∧
    call.excludeLogComponents = told.excludeLogComponents ∧ Follows id m told call

/-- What relates the view calls, the map and what was told. -/
structure ViewInv (c : Config (Host × List ViewEvent) Task) : Prop where
  locals : ∀ t call, c.task t = .view call → call.Unsent ∨ call.Sent
  told : ∀ id told, currentTold id c.shared.2 = some told →
    FollowsTold c.task c.shared.1.instances id told

namespace FollowsTold

variable {task task' : Nat → Task} {m m' : InstanceMap} {id : String} {told : Told}

/-- The call of `told` does not step, and the entry keeps its view. -/
theorem sameViews (h : FollowsTold task m id told) (htask : task' told.task = task told.task)
    (hm : InstanceMap.SameViews id m m') : FollowsTold task' m' id told := by
  obtain ⟨call, hcall, hpaths, hexclude, hfollows⟩ := h.call
  exact ⟨h.payload, call, htask.trans hcall, hpaths, hexclude, hfollows.sameViews hm⟩

theorem task_sent (h : FollowsTold task m id told) {call : ViewCall}
    (hcall : task told.task = .view call) : call.Sent := by
  obtain ⟨call', hcall', -, -, hfollows⟩ := h.call
  obtain rfl : call' = call := by simpa using hcall'.symm.trans hcall
  exact hfollows.sent

end FollowsTold

namespace ViewInv

variable {c c' : Config (Host × List ViewEvent) Task} {me : Nat} {i : Choice}

theorem locals_of_step (inv : ViewInv c) (hother : ∀ t, t ≠ me → c'.task t = c.task t)
    (hme : ∀ call, c'.task me = .view call → call.Unsent ∨ call.Sent) :
    ∀ t call, c'.task t = .view call → call.Unsent ∨ call.Sent := by
  intro t call hcall
  by_cases ht : t = me
  · subst ht
    exact hme call hcall
  · exact inv.locals t call (hother t ht ▸ hcall)

/-- A task that is no view call. -/
theorem step_other (inv : ViewInv c) (hv : ∀ call, c.task me ≠ .view call)
    (hs : (c.task me).step me c.shared.1 i = some (c'.shared.1, c'.task me))
    (hother : ∀ t, t ≠ me → c'.task t = c.task t)
    (hlog : c'.shared.2 = (noteView me c.shared.1 (c.task me) i).toList ++ c.shared.2) :
    ViewInv c' := by
  have hv' := Task.step_not_view hs hv
  refine ⟨inv.locals_of_step hother fun call hcall => absurd hcall (hv' call), ?_⟩
  intro id told htold
  -- the section is no new session for `id`, or nobody was told anything yet
  have hold : noteView me c.shared.1 (c.task me) i ≠ some (.connected id) ∧
      currentTold id c.shared.2 = some told := by
    rw [hlog] at htold
    cases ht : c.task me with
    | view call => exact absurd ht (hv call)
    | session s =>
      rw [ht] at htold
      by_cases hpc : s.pc = .insert
      · simp only [noteView, if_pos hpc, Option.toList_some, List.singleton_append,
          currentTold] at htold ⊢
        split at htold
        · cases htold
        · rename_i hne
          exact ⟨fun he => hne (by simpa using he), htold⟩
      · simp only [noteView, if_neg hpc] at htold ⊢
        exact ⟨by simp, htold⟩
    | _ =>
      rw [ht] at htold
      exact ⟨by simp [noteView], htold⟩
  have hfollows := inv.told id told hold.2
  have htask : told.task ≠ me := by
    rintro rfl
    obtain ⟨call, hcall, -⟩ := hfollows.call
    exact hv call hcall
  exact hfollows.sameViews (hother _ htask) (Task.step_sameViews hs hv hold.1)

/-- A view call that has yet to queue its envelope. -/
theorem step_unsent (inv : ViewInv c) (hkey : c.shared.1.instances.KeyedById)
    {call call' : ViewCall} (ht : c.task me = .view call) (hunsent : call.Unsent)
    (ht' : c'.task me = .view call') (hs : call.step c.shared.1 i = some (c'.shared.1, call'))
    (hother : ∀ t, t ≠ me → c'.task t = c.task t)
    (hlog : c'.shared.2 = (noteView me c.shared.1 (c.task me) i).toList ++ c.shared.2) :
    ViewInv c' := by
  -- no call that was told of is this one
  have htask : ∀ {id told}, currentTold id c.shared.2 = some told → told.task ≠ me := by
    rintro id told htold rfl
    exact hunsent.not_sent ((inv.told id told htold).task_sent ht)
  rw [ht] at hlog
  rcases ViewCall.step_unsent hkey hunsent hs with
    ⟨hinner, hlocal, hnote⟩ | ⟨id, corr, hpc, hserves, hpaths, hexclude, hnote⟩
  · refine ⟨inv.locals_of_step hother fun call₁ hcall₁ => ?_, fun id told htold => ?_⟩
    · obtain rfl : call' = call₁ := by simpa using ht'.symm.trans hcall₁
      refine hlocal.imp_right ?_
      rintro ⟨err, hpc⟩
      rw [ViewCall.Sent, hpc]
      trivial
    · rw [hlog, hnote] at htold
      exact (inv.told id told htold).sameViews (hother _ (htask htold)) (.of_lookup (by rw [hinner]))
  · refine ⟨inv.locals_of_step hother fun call₁ hcall₁ => ?_, fun id' told htold => ?_⟩
    · obtain rfl : call' = call₁ := by simpa using ht'.symm.trans hcall₁
      refine .inr ?_
      rw [ViewCall.Sent, hpc]
      trivial
    · rw [hlog, hnote, Option.toList_some, List.singleton_append, currentTold] at htold
      split at htold
      · rename_i hid
        subst hid
        obtain rfl := Option.some.inj htold
        exact ⟨rfl, call', ht', hpaths, hexclude, .queued corr hpc⟩
      · exact (inv.told id' told htold).sameViews (hother _ (htask htold)) (.of_serves hserves)

/-- A view call that stores its mask. -/
theorem step_mask (inv : ViewInv c) (guard : StoresInOrder c me i) {paths exclude : List String}
    {id : String} {corr : UInt64}
    (ht : c.task me = .view ⟨paths, exclude, .setReadMask id corr⟩)
    (ht' : c'.task me = .view ⟨paths, exclude, .setExclude id corr⟩)
    (hm : c'.shared.1.instances = c.shared.1.instances.setReadMask id paths)
    (hother : ∀ t, t ≠ me → c'.task t = c.task t) (hlog : c'.shared.2 = c.shared.2) :
    ViewInv c' := by
  refine ⟨inv.locals_of_step hother fun call hcall => ?_, fun id' told htold => ?_⟩
  · obtain rfl : ⟨paths, exclude, .setExclude id corr⟩ = call := by simpa using ht'.symm.trans hcall
    exact .inr trivial
  rw [hlog] at htold
  have hfollows := inv.told id' told htold
  obtain ⟨call, hcall, hpaths, hexclude, hf⟩ := hfollows.call
  rw [hm]
  by_cases htask : told.task = me
  · -- the view told last is the one that is stored
    rw [htask, ht] at hcall
    cases hcall
    refine ⟨hfollows.payload, ⟨paths, exclude, .setExclude id corr⟩, htask ▸ ht', hpaths, hexclude, ?_⟩
    cases hf with
    | queued corr' pc =>
      cases pc
      refine .masked corr rfl fun inst hid => ?_
      obtain ⟨old, -, rfl⟩ := HashMap.of_lookup_modify_self hid
      exact hpaths
    | masked corr' pc _ => cases pc
    | stored result pc _ _ => cases pc
  · by_cases hid : id' = id
    · subst hid
      refine ⟨hfollows.payload, call, (hother _ htask).trans hcall, hpaths, hexclude,
        hf.setReadMask (guard.mask ht htold hcall hf)⟩
    · refine hfollows.sameViews (hother _ htask) (.of_lookup ?_)
      rw [InstanceMap.setReadMask, InstanceMap.lookup_modify, if_neg hid]

/-- A view call that stores its exclude list. -/
theorem step_exclude (inv : ViewInv c) (guard : StoresInOrder c me i) {paths exclude : List String}
    {id : String} {corr : UInt64} (ht : c.task me = .view ⟨paths, exclude, .setExclude id corr⟩)
    (ht' : c'.task me = .view ⟨paths, exclude, .returned (.ok (id, corr))⟩)
    (hm : c'.shared.1.instances = c.shared.1.instances.setExcludeLogComponents id exclude)
    (hother : ∀ t, t ≠ me → c'.task t = c.task t) (hlog : c'.shared.2 = c.shared.2) :
    ViewInv c' := by
  refine ⟨inv.locals_of_step hother fun call hcall => ?_, fun id' told htold => ?_⟩
  · obtain rfl : ⟨paths, exclude, .returned (.ok (id, corr))⟩ = call := by
      simpa using ht'.symm.trans hcall
    exact .inr trivial
  rw [hlog] at htold
  have hfollows := inv.told id' told htold
  obtain ⟨call, hcall, hpaths, hexclude, hf⟩ := hfollows.call
  rw [hm]
  by_cases htask : told.task = me
  · rw [htask, ht] at hcall
    cases hcall
    refine ⟨hfollows.payload, ⟨paths, exclude, .returned (.ok (id, corr))⟩, htask ▸ ht', hpaths,
      hexclude, ?_⟩
    cases hf with
    | queued corr' pc => cases pc
    | masked corr' pc readMask =>
      cases pc
      refine .stored (id, corr) rfl (fun inst hid => ?_) fun inst hid => ?_
      · obtain ⟨old, hold, rfl⟩ := HashMap.of_lookup_modify_self hid
        exact readMask old hold
      · obtain ⟨old, -, rfl⟩ := HashMap.of_lookup_modify_self hid
        exact hexclude
    | stored result pc _ _ => cases pc
  · by_cases hid : id' = id
    · subst hid
      refine ⟨hfollows.payload, call, (hother _ htask).trans hcall, hpaths, hexclude,
        hf.setExclude (guard.exclude ht htold hcall hf)⟩
    · refine hfollows.sameViews (hother _ htask) (.of_lookup ?_)
      rw [InstanceMap.setExcludeLogComponents, InstanceMap.lookup_modify, if_neg hid]

/-- Every step that stores in order keeps the invariant. -/
theorem step (inv : ViewInv c) (hkey : c.shared.1.instances.KeyedById)
    (guard : StoresInOrder c me i) (hf : viewHistory.fire c me i = some c') : ViewInv c' := by
  obtain ⟨hfire, hlog⟩ := Pool.fire_recording hf
  obtain ⟨hs, hother⟩ := fire_task hfire
  change (c.task me).step me c.shared.1 i = some (c'.shared.1, c'.task me) at hs
  by_cases hv : ∃ call, c.task me = .view call
  · obtain ⟨call, ht⟩ := hv
    rw [ht] at hs
    obtain ⟨⟨h', call'⟩, hstep, he⟩ := Option.map_eq_some_iff.mp hs
    obtain ⟨hh, ht'⟩ := Prod.mk.inj he
    subst hh
    rcases inv.locals me call ht with hunsent | hsent
    · exact inv.step_unsent hkey ht hunsent ht'.symm hstep hother hlog
    · obtain ⟨paths, exclude, pc⟩ := call
      cases pc with
      | setReadMask id corr =>
        cases i with
        | run =>
          obtain ⟨hm, hc⟩ := Prod.mk.inj (Option.some.inj hstep)
          rw [ht] at hlog
          exact inv.step_mask guard ht (hc ▸ ht'.symm) (congrArg Host.instances hm.symm) hother hlog
        | _ => cases hstep
      | setExclude id corr =>
        cases i with
        | run =>
          obtain ⟨hm, hc⟩ := Prod.mk.inj (Option.some.inj hstep)
          rw [ht] at hlog
          exact inv.step_exclude guard ht (hc ▸ ht'.symm) (congrArg Host.instances hm.symm) hother
            hlog
        | _ => cases hstep
      | returned result => cases i <;> cases hstep
      | _ => exact hsent.elim
  · exact inv.step_other (fun call ht => hv ⟨call, ht⟩) hs hother hlog

end ViewInv

/-! ## The result -/

theorem SessionsInv.keyed {m : InstanceMap} {ss : Nat → Option Session} (inv : SessionsInv m ss) :
    m.KeyedById := by
  intro id inst hid
  obtain ⟨t, s, -, hown⟩ := inv.owner id inst hid
  rw [hown.register]
  exact hown.key

theorem ViewInv.of_boot {c : Config Host Task} (boot : Boot c) : ViewInv (c.withLog []) := by
  refine ⟨fun t call ht => .inl ?_, fun id told htold => by cases htold⟩
  have hfresh := boot.fresh t
  rw [show c.task t = .view call from ht] at hfresh
  obtain ⟨id, paths, exclude, rfl⟩ := hfresh
  cases id <;> trivial

theorem ViewInv.of_reach {c₀ : Config Host Task} {c : Config (Host × List ViewEvent) Task}
    (boot : Boot c₀) (run : viewHistory.Reach StoresInOrder (c₀.withLog []) c) : ViewInv c := by
  induction run with
  | refl => exact of_boot boot
  | tail run guard hf ih =>
    exact ih.step (SessionsInv.of_reach boot run.erase).keyed guard hf

/-- **Agreement of the views.** In every run in which views are stored in order: when no
view call is under way, the mask and the exclude list of every session are those of the
call that queued its `SetSessionView` last. -/
theorem viewsAgree_of_storesInOrder {c₀ : Config Host Task}
    {c : Config (Host × List ViewEvent) Task} (boot : Boot c₀)
    (run : viewHistory.Reach StoresInOrder (c₀.withLog []) c) : ViewsAgree c := by
  intro hsettled id inst told hid htold
  obtain ⟨hpayload, call, hcall, -, -, hfollows⟩ := (ViewInv.of_reach boot run).told id told htold
  have hdone := hsettled _ call hcall
  cases hfollows with
  | queued corr pc => rw [pc] at hdone; exact hdone.elim
  | masked corr pc _ => rw [pc] at hdone; exact hdone.elim
  | stored result pc readMask excluded =>
    refine ⟨readMask inst hid, excluded inst hid, ?_⟩
    rw [readMask inst hid, excluded inst hid, hpayload]

/-- A stream and two calls that set different views. -/
def twoViews : Config Host Task :=
  bootWith {} [externalStream, .view (.start (some "a") ["log"] ["MEM"]),
    .view (.start (some "a") ["heartbeat"] [])]

theorem boot_twoViews : Boot twoViews := by
  refine boot_bootWith fun t ht => ?_
  rcases List.mem_cons.mp ht with rfl | ht
  · rfl
  · rcases List.mem_cons.mp ht with rfl | ht
    · exact ⟨some "a", _, _, rfl⟩
    · obtain rfl := List.mem_singleton.mp ht
      exact ⟨some "a", _, _, rfl⟩

/-- The stream registers, and both calls queue their envelopes, `1` before `2`. -/
def twoViewsQueued : List (Nat × Choice) :=
  [(0, registerAs "a"), (0, .run), (0, .run), (1, .run), (1, .run), (1, .run), (1, .run),
    (2, .run), (2, .run), (2, .run), (2, .run)]

/-- The calls store their views in the order of their envelopes. -/
theorem viewsAgree_inOrder :
    ∃ c, viewHistory.Reach StoresInOrder (twoViews.withLog []) c ∧
      (currentTold "a" c.shared.2).map Told.task = some 2 ∧
      c.shared.1.instances.readMask "a" = some ["heartbeat"] ∧ ViewsAgree c := by
  obtain ⟨c, run, htold, hmask⟩ := viewHistory.exists_reach StoresInOrder (twoViews.withLog [])
    (twoViewsQueued ++ [(1, .run), (1, .run), (2, .run), (2, .run)])
    (fun c => (currentTold "a" c.shared.2).map Told.task = some 2 ∧
      c.shared.1.instances.readMask "a" = some ["heartbeat"]) (by decide +kernel)
  exact ⟨c, run, htold, hmask, viewsAgree_of_storesInOrder boot_twoViews run⟩

/-- The calls store their views in the other order: the simulator was told the view of
call `2` last, and the host keeps that of call `1`. -/
theorem not_viewsAgree_storedLate :
    ¬ ∀ c₀ c, Boot c₀ → viewHistory.Reach Pool.anyStep (c₀.withLog []) c → ViewsAgree c := by
  intro hall
  obtain ⟨c, run, htold, hmask, h0, h1, h2⟩ := viewHistory.exists_reach (fun _ me _ => me < 3)
    (twoViews.withLog []) (twoViewsQueued ++ [(2, .run), (2, .run), (1, .run), (1, .run)])
    (fun c => (currentTold "a" c.shared.2).map Told.paths = some ["heartbeat"] ∧
      c.shared.1.instances.readMask "a" = some ["log"] ∧
      c.task 0 = .session ⟨.external, { instanceId := "a" }, 1, [], .next⟩ ∧
      c.task 1 = .view ⟨["log"], ["MEM"], .returned (.ok ("a", 1))⟩ ∧
      c.task 2 = .view ⟨["heartbeat"], [], .returned (.ok ("a", 2))⟩) (by decide +kernel)
  have hsettled : ViewsSettled c.task := by
    intro t call ht
    match t with
    | 0 => rw [h0] at ht; cases ht
    | 1 => rw [h1] at ht; cases ht; trivial
    | 2 => rw [h2] at ht; cases ht; trivial
    | t + 3 =>
      have hidle : c.task (t + 3) = .environment :=
        run.task_idle (t := t + 3) (by rintro _ me _ hme rfl; omega)
      rw [hidle] at ht
      cases ht
  obtain ⟨told, htold, hpaths⟩ := Option.map_eq_some_iff.mp htold
  obtain ⟨inst, hid, hinst⟩ := Option.map_eq_some_iff.mp hmask
  obtain ⟨hagree, -⟩ :=
    hall twoViews c boot_twoViews (run.mono fun _ _ _ _ => trivial) hsettled "a" inst told hid htold
  rw [hinst, hpaths] at hagree
  exact absurd hagree (by decide)

end CsmProxy
