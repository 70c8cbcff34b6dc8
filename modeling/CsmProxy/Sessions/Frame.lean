import CsmProxy.Runtime.Footprint
import Mathlib.Data.Option.Basic

/-!
# What other tasks leave alone in a session's entry

Every task other than the session's own handler keeps the token, the registration
and the heartbeat of every entry, neither adds nor removes entries, and changes an
inbound queue only by taking messages from its front (`Task.step_keeps`). The proofs
about sessions use this one frame and never unfold the steps of the other tasks.
-/

namespace CsmProxy

open Foundations

/-- `inst'` is still the same session; messages may have been taken. -/
structure Instance.Keeps (inst inst' : Instance) : Prop where
  token : inst'.token = inst.token
  register : inst'.register = inst.register
  lastHeartbeat : inst'.lastHeartbeat = inst.lastHeartbeat
  inbound : inst'.inbound.items <:+ inst.inbound.items

/-- Its view is still the same as well. -/
structure Instance.Serves (inst inst' : Instance) : Prop extends inst.Keeps inst' where
  readMask : inst'.readMask = inst.readMask
  excludeLogComponents : inst'.excludeLogComponents = inst.excludeLogComponents

theorem Instance.Serves.refl (inst : Instance) : inst.Serves inst :=
  ⟨⟨rfl, rfl, rfl, List.suffix_refl _⟩, rfl, rfl⟩

namespace InstanceMap

/-- The same sessions are connected, and no token was handed out. -/
structure Keeps (m m' : InstanceMap) : Prop where
  nextToken : m'.nextToken = m.nextToken
  entry : ∀ id, Option.Rel Instance.Keeps (m.inner.lookup id) (m'.inner.lookup id)

/-- The same sessions are connected under the same views, and no token was handed out. -/
structure Serves (m m' : InstanceMap) : Prop where
  nextToken : m'.nextToken = m.nextToken
  entry : ∀ id, Option.Rel Instance.Serves (m.inner.lookup id) (m'.inner.lookup id)

/-- What is related to an entry is an entry. -/
theorem exists_of_rel {R : Instance → Instance → Prop} {o o' : Option Instance} {inst' : Instance}
    (hr : Option.Rel R o o') (h' : o' = some inst') : ∃ inst, o = some inst ∧ R inst inst' := by
  subst h'
  cases hr with
  | some hs => exact ⟨_, rfl, hs⟩

theorem rel_serves_refl (o : Option Instance) : Option.Rel Instance.Serves o o := by
  cases o with
  | none => exact .none
  | some inst => exact .some (.refl inst)

theorem Serves.keeps {m m' : InstanceMap} (h : m.Serves m') : m.Keeps m' := by
  refine ⟨h.nextToken, fun id => ?_⟩
  have hr := h.entry id
  generalize m.inner.lookup id = o, m'.inner.lookup id = o' at hr ⊢
  cases hr with
  | none => exact .none
  | some hs => exact .some hs.toKeeps

theorem Serves.of_inner {m m' : InstanceMap} (ht : m'.nextToken = m.nextToken)
    (hi : m'.inner = m.inner) : m.Serves m' := ⟨ht, fun _ => hi ▸ rel_serves_refl _⟩

theorem Serves.refl (m : InstanceMap) : m.Serves m := .of_inner rfl rfl

/-- A change of one entry in place relates all entries when it relates that one. -/
theorem rel_modify {R : Instance → Instance → Prop} (hrefl : ∀ inst : Instance, R inst inst)
    {m : InstanceMap} {id : String} {f : Instance → Instance} (hf : ∀ inst, R inst (f inst))
    (id' : String) : Option.Rel R (m.inner.lookup id') ((m.modify id f).inner.lookup id') := by
  rw [lookup_modify]
  cases m.inner.lookup id' with
  | none => simp only [Option.map_none, ite_self]; exact .none
  | some inst =>
    split
    · exact .some (hf inst)
    · exact .some (hrefl inst)

theorem serves_insert {m : InstanceMap} {id : String} {inst inst' : Instance}
    (hid : m.inner.lookup id = some inst) (hk : inst.Serves inst') :
    m.Serves { m with inner := m.inner.insert id inst' } := by
  refine ⟨rfl, fun id' => ?_⟩
  change Option.Rel _ _ (Finmap.lookup id' (m.inner.insert id inst'))
  rw [HashMap.lookup_insert_ite]
  split
  · rename_i h
    subst h
    rw [hid]
    exact .some hk
  · exact rel_serves_refl _

theorem trySend_serves {m m' : InstanceMap} {id : String} {msg : ServerToSim}
    (h : m.trySend id msg = .ok m') : m.Serves m' := by
  unfold trySend at h
  split at h
  · cases h
  · rename_i inst hid
    split at h
    · cases h
    · obtain rfl := Except.ok.inj h
      exact serves_insert hid ⟨⟨rfl, rfl, rfl, List.suffix_refl _⟩, rfl, rfl⟩

theorem tryRecvInbound_serves (m : InstanceMap) (id : String) :
    m.Serves (m.tryRecvInbound id).2 := by
  unfold tryRecvInbound
  split
  · exact .refl m
  · rename_i inst hid
    exact serves_insert hid ⟨⟨rfl, rfl, rfl, List.tail_suffix _⟩, rfl, rfl⟩

end InstanceMap

/-! ## The tasks -/

theorem SendCall.step_serves {me : Nat} {h h' : Host} {c c' : SendCall} {i : Choice}
    (hs : c.step me h i = some (h', c')) : h.instances.Serves h'.instances := by
  cases step_section hs with
  | insertWaiter hpc | take hpc =>
    rw [Host.dropSender_instances]
    exact .of_inner rfl rfl
  | insertInstance hpc | forget hpc => exact .of_inner rfl rfl
  | queued hpc hsend => exact InstanceMap.trySend_serves hsend
  | _ => exact .refl _

theorem ObserveCall.step_serves {me : Nat} {h h' : Host} {c c' : ObserveCall} {i : Choice}
    (hs : c.step me h i = some (h', c')) : h.instances.Serves h'.instances := by
  have hk := InstanceMap.tryRecvInbound_serves h.instances c.id
  cases step_cases hs with
  | pop hpc hrecv =>
    rw [hrecv] at hk
    exact hk
  | drained hpc hrecv =>
    rw [hrecv] at hk
    exact hk
  | _ => exact .refl _

theorem EnqueuePc.step_serves (ack : Bool) (payload : ServerPayload) (h : Host) (pc : EnqueuePc) :
    h.instances.Serves (pc.step ack payload h).1.instances := by
  cases pc with
  | default => simp only [step]; split <;> exact .refl _
  | resolve id => simp only [step]; split <;> exact .refl _
  | nextCorr id => exact .of_inner rfl rfl
  | trySend id corr =>
    simp only [step]
    split
    · rename_i instances hsend
      exact InstanceMap.trySend_serves hsend
    · exact .refl _
    · exact .refl _

theorem EnqueueCall.step_serves {h h' : Host} {c c' : EnqueueCall} {i : Choice}
    (hs : c.step h i = some (h', c')) : h.instances.Serves h'.instances := by
  obtain ⟨ack, payload, pc, result⟩ := c
  cases i with
  | run =>
    cases result with
    | none =>
      have hk := EnqueuePc.step_serves ack payload h pc
      simp only [step] at hs
      split at hs <;> (rename_i he; rw [he] at hk; cases hs; exact hk)
    | some result => cases hs
  | _ => cases result <;> cases hs

theorem ShutdownCall.step_serves {me : Nat} {h h' : Host} {c c' : ShutdownCall} {i : Choice}
    (hs : c.step me h i = some (h', c')) : h.instances.Serves h'.instances := by
  obtain ⟨instanceId, pc⟩ := c
  cases pc with
  | enqueue pc =>
    have hk := EnqueuePc.step_serves false .shutdown h pc
    cases i <;> simp only [step] at hs
    case run => split at hs <;> (rename_i he; rw [he] at hk; cases hs; exact hk)
    all_goals cases hs
  | choose queued =>
    cases i <;> simp only [step] at hs
    case run => split at hs <;> (cases hs; exact .refl _)
    all_goals cases hs
  | reap queued id pc =>
    obtain ⟨⟨g, out⟩, hp, he⟩ := Option.map_eq_some_iff.mp hs
    cases he
    obtain ⟨s, p, rfl⟩ := ReapPc.step_footprint hp
    exact .refl _
  | returned queued => cases i <;> cases hs

theorem environmentStep_serves {h h' : Host} {i : Choice} (hs : environmentStep h i = some h') :
    h.instances.Serves h'.instances := by
  cases i with
  | tick ns => cases hs; exact .refl _
  | exited child => cases hs; exact .refl _
  | drain token => cases hs; exact .of_inner rfl rfl
  | recv id | hangUp id =>
    cases hs
    exact ⟨rfl, InstanceMap.rel_modify .refl fun inst => ⟨⟨rfl, rfl, rfl, List.suffix_refl _⟩, rfl, rfl⟩⟩
  | _ => cases hs

/-- A step of a stream's handler, as a step of the pool. -/
theorem Task.step_session {me : Nat} {h h' : Host} {s : Session} {t' : Task} {i : Choice}
    (hs : (Task.session s).step me h i = some (h', t')) :
    ∃ s', t' = .session s' ∧ s.step h i = some (h', s') := by
  obtain ⟨⟨g, s'⟩, hp, he⟩ := Option.map_eq_some_iff.mp hs
  cases he
  exact ⟨s', rfl, hp⟩

/-- **Frame.** A task that is neither a stream's handler nor sets a view keeps all sessions
and their views. -/
theorem Task.step_serves {me : Nat} {h h' : Host} {t t' : Task} {i : Choice}
    (hs : t.step me h i = some (h', t')) (ht : ∀ s, t ≠ .session s) (hv : ∀ c, t ≠ .view c) :
    h.instances.Serves h'.instances := by
  cases t with
  | session s => exact absurd rfl (ht s)
  | view c => exact absurd rfl (hv c)
  | environment =>
    obtain ⟨g, hp, he⟩ := Option.map_eq_some_iff.mp hs
    cases he
    exact environmentStep_serves hp
  | _ =>
    obtain ⟨⟨g, c'⟩, hp, he⟩ := Option.map_eq_some_iff.mp hs
    cases he
    first
      | exact SendCall.step_serves hp
      | exact ObserveCall.step_serves hp
      | exact EnqueueCall.step_serves hp
      | obtain ⟨s, p, rfl⟩ := SupervisorCall.step_footprint hp; exact .refl _
      | obtain ⟨s, p, rfl⟩ := StartInstanceCall.step_footprint hp; exact .refl _
      | exact ShutdownCall.step_serves hp

theorem ViewCall.step_keeps {h h' : Host} {c c' : ViewCall} {i : Choice}
    (hs : c.step h i = some (h', c')) : h.instances.Keeps h'.instances := by
  obtain ⟨paths, exclude, pc⟩ := c
  cases i with
  | run =>
    cases pc with
    | default =>
      simp only [step] at hs
      split at hs <;> (cases hs; exact (InstanceMap.Serves.refl _).keeps)
    | resolve id =>
      simp only [step] at hs
      split at hs <;> (cases hs; exact (InstanceMap.Serves.refl _).keeps)
    | enqueue id pc =>
      have hk := EnqueuePc.step_serves false
        (.setSessionView (wireSessionViewPaths paths) exclude) h pc
      simp only [step] at hs
      split at hs <;> (rename_i he; rw [he] at hk; cases hs; exact hk.keeps)
    | setReadMask id corr =>
      cases hs
      exact ⟨rfl, InstanceMap.rel_modify (fun inst => ⟨rfl, rfl, rfl, List.suffix_refl _⟩) fun inst => ⟨rfl, rfl, rfl, List.suffix_refl _⟩⟩
    | setExclude id corr =>
      cases hs
      exact ⟨rfl, InstanceMap.rel_modify (fun inst => ⟨rfl, rfl, rfl, List.suffix_refl _⟩) fun inst => ⟨rfl, rfl, rfl, List.suffix_refl _⟩⟩
    | returned result => cases hs
  | _ => cases pc <;> cases hs

/-- A task that is not a stream's handler keeps all sessions, and does not become a
handler. -/
theorem Task.step_keeps {me : Nat} {h h' : Host} {t t' : Task} {i : Choice}
    (hs : t.step me h i = some (h', t')) (ht : ∀ s, t ≠ .session s) :
    h.instances.Keeps h'.instances ∧ ∀ s, t' ≠ .session s := by
  have hl : ∀ s, t' ≠ .session s := by
    rintro s rfl
    cases t with
    | session s => exact ht s rfl
    | _ =>
      obtain ⟨_, -, he⟩ := Option.map_eq_some_iff.mp hs
      cases he
  by_cases hv : ∃ c, t = .view c
  · obtain ⟨c, rfl⟩ := hv
    obtain ⟨⟨g, c'⟩, hp, he⟩ := Option.map_eq_some_iff.mp hs
    cases he
    exact ⟨ViewCall.step_keeps hp, hl⟩
  · exact ⟨(Task.step_serves hs ht fun c hc => hv ⟨c, hc⟩).keeps, hl⟩

end CsmProxy
