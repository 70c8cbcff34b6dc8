import CsmProxy.Progress.Loops

/-!
# When a task can step

A task of the server that does not rest can take its next section as soon as the time has
come for which it waits (`ServerTask.ready`): the deadline of its reply, the end of a sleep,
or the two seconds that a killed process has to exit.
-/

namespace CsmProxy

open Foundations

/-- From the time `from_` on, whatever the host, some section can run. -/
def ReadyFrom {α β : Type} (step : Host → α → Choice → Option β) (a : α) : Prop :=
  ∃ from_, ∀ h : Host, from_ ≤ h.now → ∃ i r, step h a i = some r

theorem ReadyFrom.always {α β : Type} {step : Host → α → Choice → Option β} {a : α}
    (h : ∀ h, ∃ i r, step h a i = some r) : ReadyFrom step a := ⟨0, fun g _ => h g⟩

/-- A section of a part is a section of the whole. -/
theorem ReadyFrom.map {α α' β β' : Type} {step : Host → α → Choice → Option β} {a : α}
    {step' : Host → α' → Choice → Option β'} {a' : α'} (ready : ReadyFrom step a)
    (part : ∀ h i, ∃ f, step' h a' i = (step h a i).map f) : ReadyFrom step' a' := by
  obtain ⟨start, hready⟩ := ready
  refine ⟨start, fun h hlate => ?_⟩
  obtain ⟨i, r, hs⟩ := hready h hlate
  obtain ⟨f, hf⟩ := part h i
  exact ⟨i, f r, by rw [hf, hs, Option.map_some]⟩

/-! ## Requests -/

theorem SendCall.ready (me : Nat) {c : SendCall} (busy : ∀ result, c.pc ≠ .returned result) :
    ReadyFrom (fun h c i => c.step me h i) c := by
  obtain ⟨id, msg, timeout, kind, pc, session, via⟩ := c
  cases pc with
  | await deadline =>
    refine ⟨deadline, fun h hlate => ⟨.run, ?_⟩⟩
    simp only [step]
    cases h.oneshot me with
    | sent via reply => exact ⟨_, rfl⟩
    | dropped => exact ⟨_, rfl⟩
    | waiting => exact ⟨_, if_pos hlate⟩
  | trySend =>
    refine .always fun h => ⟨.run, ?_⟩
    simp only [step]
    cases h.instances.trySend id msg with
    | ok instances => exact ⟨_, rfl⟩
    | error err => cases err <;> exact ⟨_, rfl⟩
  | returned result => exact absurd rfl (busy result)
  | _ => exact .always fun _ => ⟨.run, _, rfl⟩

/-- The call that the request waits for has not returned. -/
def RequestPc.Unreturned (pc : RequestPc) : Prop :=
  ∀ w call, pc = .wait w (.send call) → ∀ result, call.pc ≠ .returned result

theorem RequestPc.ready (tx : Nat) (r : ToolRequest) {pc : RequestPc} (unreturned : pc.Unreturned) :
    ReadyFrom (fun h pc i => pc.step tx r h i) pc := by
  cases pc with
  | enqueue q => exact .always fun _ => ⟨.run, _, rfl⟩
  | wait w pc =>
    cases pc with
    | default =>
      refine .always fun h => ⟨.run, ?_⟩
      simp only [step, WaitPc.step]
      cases h.instances.defaultInstance <;> exact ⟨_, rfl⟩
    | resolve id =>
      refine .always fun h => ⟨.run, ?_⟩
      simp only [step, WaitPc.step]
      cases h.instances.resolve id <;> exact ⟨_, rfl⟩
    | nextCorr id => exact .always fun _ => ⟨.run, _, rfl⟩
    | read id corr reply => exact .always fun _ => ⟨.run, _, rfl⟩
    | send call =>
      refine (SendCall.ready tx (unreturned w call rfl)).map fun h i => ⟨fun s =>
        (s.1, (WaitPc.afterSend s.2).map (.wait w) (Except.mapError ToolError.text)), ?_⟩
      simp only [step, WaitPc.step, Option.map_map]
      rfl

theorem EnqueueCall.ready {c : EnqueueCall} (busy : c.result = none) :
    ReadyFrom (fun h c i => c.step h i) c := by
  obtain ⟨ack, payload, pc, result⟩ := c
  obtain rfl : result = none := busy
  refine .always fun h => ⟨.run, ?_⟩
  simp only [step]
  split <;> exact ⟨_, rfl⟩

theorem ViewCall.ready {c : ViewCall} (busy : ∀ result, c.pc ≠ .returned result) :
    ReadyFrom (fun h c i => c.step h i) c := by
  obtain ⟨paths, exclude, pc⟩ := c
  cases pc with
  | returned result => exact absurd rfl (busy result)
  | setReadMask id corr | setExclude id corr => exact .always fun _ => ⟨.run, _, rfl⟩
  | _ =>
    refine .always fun h => ⟨.run, ?_⟩
    simp only [step]
    split <;> exact ⟨_, rfl⟩

/-! ## Spawning -/

theorem StartPc.ready (args : StartArgs) (me : Nat) (pc : StartPc) :
    ReadyFrom (fun h pc i => pc.step args me h i) pc := by
  cases pc with
  -- the program may always fail to start
  | exec => exact .always fun _ => ⟨.fails "", _, rfl⟩
  | _ => exact .always fun _ => ⟨.run, _, rfl⟩

theorem ReapPc.ready (id : String) (me : Nat) (pc : ReapPc) :
    ReadyFrom (fun h pc i => pc.step id me h i) pc := by
  cases pc with
  | wait child deadline =>
    refine ⟨deadline, fun h hlate => ⟨.run, (h, none), ?_⟩⟩
    simp only [step, hlate, decide_true, Bool.or_true, if_true]
  | _ => exact .always fun _ => ⟨.run, _, rfl⟩

/-- The call has returned. -/
def SupervisorCall.returned : SupervisorCall → Bool
  | .started .. | .reaped _ | .answered .. => true
  | .reapAll pc => pc = .returned
  | _ => false

theorem SupervisorCall.ready (me : Nat) {c : SupervisorCall} (busy : c.returned = false) :
    ReadyFrom (fun h c i => c.step me h i) c := by
  cases c with
  | start args pc =>
    exact (pc.ready args me).map fun _ _ => ⟨_, rfl⟩
  | reap id pc =>
    exact (pc.ready id me).map fun _ _ => ⟨_, rfl⟩
  | reapAll pc =>
    cases pc with
    | collect => exact .always fun _ => ⟨.run, _, rfl⟩
    | next rest =>
      refine .always fun h => ?_
      rcases rest.eq_empty_or_nonempty with rfl | ⟨id, hid⟩
      · exact ⟨.run, _, rfl⟩
      · have hpick : reapAllStep me h (.next rest) (.pickId id) =
            some (h, .reap id .take (rest.erase id)) := if_pos hid
        exact ⟨.pickId id, _, Option.map_eq_some_iff.mpr ⟨_, hpick, rfl⟩⟩
    | reap id pc rest =>
      refine (pc.ready id me).map fun h i => ⟨fun r =>
        (r.1, .reapAll (r.2.elim (.next rest) (.reap id · rest))), ?_⟩
      simp only [step, reapAllStep, Option.map_map]
      rfl
    | returned => cases busy
  | isAlive id => exact .always fun _ => ⟨.run, _, rfl⟩
  | started | reaped | answered => cases busy

theorem StartInstanceCall.ready (me : Nat) {c : StartInstanceCall}
    (busy : ∀ result, c.pc ≠ .returned result) : ReadyFrom (fun h c i => c.step me h i) c := by
  obtain ⟨args, pc, connectedAtSpawn, session⟩ := c
  cases pc with
  | returned result => exact absurd rfl (busy result)
  | start pc =>
    exact (pc.ready args me).map fun _ _ => ⟨_, rfl⟩
  | reap err pc =>
    exact (pc.ready args.instanceId me).map fun _ _ => ⟨_, rfl⟩
  | sleep pid deadline wake => exact ⟨wake, fun h hlate => ⟨.run, _, if_pos hlate⟩⟩
  | poll pid deadline =>
    refine .always fun h => ⟨.run, ?_⟩
    simp only [step]
    split <;> exact ⟨_, rfl⟩
  | _ => exact .always fun _ => ⟨.run, _, rfl⟩

theorem ShutdownCall.ready (me : Nat) {c : ShutdownCall} (busy : ∀ queued, c.pc ≠ .returned queued) :
    ReadyFrom (fun h c i => c.step me h i) c := by
  obtain ⟨instanceId, pc⟩ := c
  cases pc with
  | returned queued => exact absurd rfl (busy queued)
  | reap queued id pc =>
    exact (pc.ready id me).map fun _ _ => ⟨_, rfl⟩
  | _ =>
    refine .always fun h => ⟨.run, ?_⟩
    simp only [step]
    split <;> exact ⟨_, rfl⟩

/-! ## Observing and streams -/

theorem ObserveCall.ready (me : Nat) {c : ObserveCall} (polls : c.Polls)
    (busy : ∀ result, c.pc ≠ .returned result) : ReadyFrom (fun h c i => c.step me h i) c := by
  obtain ⟨spec, pc, id, polling, events, floor, deadline⟩ := c
  obtain ⟨hdeadline, hspec⟩ := polls
  cases pc with
  | returned result => exact absurd rfl (busy result)
  | sleep wake => exact ⟨wake, fun h hlate => ⟨.run, _, if_pos hlate⟩⟩
  | floor =>
    obtain ⟨spec, rfl⟩ := Option.isSome_iff_exists.mp (hspec (.inr rfl))
    exact .always fun _ => ⟨.run, _, rfl⟩
  | check =>
    obtain ⟨spec, rfl⟩ := Option.isSome_iff_exists.mp (hspec (.inl (hdeadline (.inl rfl))))
    exact .always fun _ => ⟨.run, _, rfl⟩
  | clock matched =>
    obtain ⟨spec, rfl⟩ := Option.isSome_iff_exists.mp
      (hspec (.inl (hdeadline (.inr (.inl ⟨matched, rfl⟩)))))
    exact .always fun _ => ⟨.run, _, rfl⟩
  | readMask | reply => exact .always fun _ => ⟨.run, _, rfl⟩
  | default | resolve | drain =>
    refine .always fun h => ⟨.run, ?_⟩
    simp only [step]
    split <;> exact ⟨_, rfl⟩

theorem RemovePc.ready (id : String) (token : Nat) (pc : RemovePc) :
    ReadyFrom (fun h pc i => pc.step id token h i) pc := by
  cases pc with
  | next rest =>
    refine .always fun h => ?_
    rcases rest.eq_empty_or_nonempty with rfl | ⟨corr, hcorr⟩
    · exact ⟨.run, _, rfl⟩
    · exact ⟨.pick corr, _, if_pos hcorr⟩
  | _ => exact .always fun _ => ⟨.run, _, rfl⟩

theorem Session.ready {s : Session} (busy : s.pc.atRest = false) :
    ReadyFrom (fun h s i => s.step h i) s := by
  obtain ⟨dialler, register, token, received, pc⟩ := s
  cases pc with
  | first | refused | next | ended => cases busy
  | removeGoodbye sub | remove sub =>
    exact (sub.ready register.instanceId token).map fun _ _ => ⟨_, rfl⟩
  | _ => exact .always fun _ => ⟨.run, _, rfl⟩

end CsmProxy
