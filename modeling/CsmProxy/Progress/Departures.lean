import CsmProxy.Progress.Returns
import CsmProxy.Requests.Streams

/-!
# Departed streams are forgotten

The handler of a stream that has closed or failed, that was replaced, or whose simulator has
said goodbye gets to its end, and then nothing of the stream is left in the instance map
(`entry_forgotten`).
-/

namespace CsmProxy

open Foundations

/-- The handler has left the read loop. -/
def SessionPc.leaves : SessionPc → Bool
  | .removeGoodbye _ | .leaving | .remove _ | .ended => true
  | _ => false

theorem SessionPc.eq_ended {pc : SessionPc} (leaves : pc.leaves = true) (rest : pc.atRest = true) :
    pc = .ended := by
  cases pc <;> simp_all [SessionPc.leaves, SessionPc.atRest]

namespace Session

theorem hasToken_of_leaves {s : Session} (leaves : s.pc.leaves = true) : s.HasToken := by
  obtain ⟨dialler, register, token, received, pc⟩ := s
  cases pc <;> trivial

/-- A handler that has left the read loop does not come back to it. -/
theorem step_leaves {h h' : Host} {s s' : Session} {i : Choice}
    (hs : s.step h i = some (h', s')) (leaves : s.pc.leaves = true) :
    s'.pc.leaves = true ∧ s'.token = s.token := by
  obtain ⟨dialler, register, token, received, pc⟩ := s
  cases step_section hs with
  | @removeGoodbye sub _ _ out | @remove sub _ _ out => cases out <;> exact ⟨rfl, rfl⟩
  | leave hpc => exact ⟨rfl, rfl⟩
  | accept hpc | allocToken hpc | insert hpc | closed hpc | failed hpc | read hpc | owned hpc
  | replaced hpc | heartbeat hpc | push hpc =>
    obtain rfl : pc = _ := hpc
    cases leaves

end Session

/-- Task `p` handles the stream `token` and has left the read loop. -/
def Departing (c : Config Host ServerTask) (p token : Nat) : Prop :=
  ∃ s, c.task p = .task (.session s) ∧ s.pc.leaves = true ∧ s.token = token

theorem Departing.step {c c' : Config Host ServerTask} {me p token : Nat} {i : Choice}
    (h : Departing c p token) (hf : server.fire c me i = some c') : Departing c' p token := by
  obtain ⟨s, hp, leaves, htoken⟩ := h
  obtain ⟨hs, hother⟩ := fire_serverTask hf
  by_cases hpm : p = me
  · subst hpm
    rw [hp] at hs
    obtain ⟨⟨g, u⟩, hu, he⟩ := Option.map_eq_some_iff.mp hs
    obtain ⟨s', rfl, hstep⟩ := Task.step_session hu
    obtain ⟨leaves', hsame⟩ := Session.step_leaves hstep leaves
    exact ⟨s', (Prod.mk.inj he).2.symm, leaves', hsame.trans htoken⟩
  · exact ⟨s, (hother p hpm).trans hp, leaves, htoken⟩

/-- A handler at its end takes no step. -/
theorem Session.step_ended {h : Host} {s : Session} {i : Choice} (hpc : s.pc = .ended) :
    s.step h i = none := by
  obtain ⟨dialler, register, token, received, pc⟩ := s
  obtain rfl : pc = .ended := hpc
  cases i <;> rfl

theorem fire_ended {c c' : Config Host ServerTask} {me p : Nat} {i : Choice} {s : Session}
    (hp : c.task p = .task (.session s)) (hpc : s.pc = .ended)
    (hf : server.fire c me i = some c') : c'.task p = .task (.session s) := by
  obtain ⟨hs, hother⟩ := fire_serverTask hf
  by_cases hpm : p = me
  · subst hpm
    rw [hp] at hs
    obtain ⟨⟨g, u⟩, hu, -⟩ := Option.map_eq_some_iff.mp hs
    obtain ⟨s', -, hstep⟩ := Task.step_session hu
    rw [Session.step_ended hpc] at hstep
    cases hstep
  · exact (hother p hpm).trans hp

/-- In an execution in which time passes, the entry of a stream whose handler has left the
read loop and is treated fairly goes away, and never comes back. -/
theorem entry_forgotten {e : server.Execution} {p n token : Nat} (boot : ServerBoot (e.config 0))
    (fair : e.Fair p) (time : TimePasses e) (departing : Departing (e.config n) p token) :
    ∃ m, n ≤ m ∧ ∀ k, m ≤ k → ∀ id inst,
      (e.config k).shared.instances.inner.lookup id = some inst → inst.token ≠ token := by
  have hdeparting : ∀ k, n ≤ k → Departing (e.config k) p token := fun k hk =>
    Pool.Execution.keeps (p := fun c => Departing c p token) hk departing
      fun _ _ _ _ h hf => h.step hf
  -- a handler is no observe call
  have hnotakes : ∀ k, n ≤ k → ¬ TakesAt e p k := by
    rintro k hk ⟨-, ⟨c, hc⟩, -⟩
    obtain ⟨s, hs, -⟩ := hdeparting k hk
    rw [Pool.Execution.taskAt, hs] at hc
    cases hc
  obtain ⟨m, hm, hrest⟩ := rests_unless_takes boot fair time hnotakes n
  obtain ⟨s, hs, leaves, htoken⟩ := hdeparting m hm
  have hended : s.pc = .ended := by
    rw [Pool.Execution.taskAt, hs] at hrest
    exact SessionPc.eq_ended leaves hrest
  refine ⟨m, hm, fun k hk id inst hid hsame => ?_⟩
  have hstays : (e.config k).task p = .task (.session s) :=
    Pool.Execution.keeps (p := fun c => c.task p = .task (.session s)) hk hs
      fun _ _ _ _ h hf => fire_ended h hended hf
  have hstage : ((e.config k).task p).stage = .task (.session s) := by rw [hstays]; rfl
  have howns := (streams_known boot (e.reach k)).owns p s id inst hstage
    (Session.hasToken_of_leaves leaves) hid (hsame.trans htoken.symm)
  refine howns.running ?_
  rw [Session.Gone, hended]
  trivial

/-! ## A stream that closes -/

/-- The simulator connects, and its stream closes. -/
def connectAndClose : List (Nat × Choice) :=
  [(0, registerAs "a"), (0, .run), (0, .run), (0, .item .closed)]

/-- The handler of the stream, once it has a token. -/
def handlerAt (pc : SessionPc) : ServerTask :=
  .task (.session { dialler := .external, register := { instanceId := "a" }, token := 1, pc := pc })

/-- The handler runs to its end. -/
def leaveLoop : List (Nat × Choice) := List.replicate 4 (0, .run)

theorem entry_forgotten_twoKeys :
    ∃ e : server.Execution, e.config 0 = twoKeys ∧ e.Fair 0 ∧ TimePasses e ∧
      (((e.config 4).shared.instances.inner.lookup "a").map Instance.token) = some 1 ∧
      ∃ m, 4 ≤ m ∧ ∀ k, m ≤ k → ∀ id inst,
        (e.config k).shared.instances.inner.lookup id = some inst → inst.token ≠ 1 := by
  obtain ⟨b, hexec, hleaving, hentry, hend⟩ := server.exists_exec Pool.anyStep twoKeys connectAndClose
    (fun b => b.task 0 = handlerAt .leaving ∧
      ((b.shared.instances.inner.lookup "a").map Instance.token) = some 1 ∧
      (server.exec Pool.anyStep b leaveLoop).any (fun c =>
        c.task 2 = .task .environment ∧ c.task 0 = handlerAt .ended) = true) (by decide +kernel)
  obtain ⟨c, hexec', hidle, hover⟩ := server.exists_exec Pool.anyStep b leaveLoop _ hend
  have hstuck : ∀ h i, (c.task 0).step 0 h i = none := by
    intro h i
    rw [hover]
    cases i <;> rfl
  obtain ⟨e, hstart, hmiddle, hfair, htime⟩ := exists_execution hexec hexec' hidle hstuck
  have hmiddle : e.config 4 = b := hmiddle
  have hdeparting : Departing (e.config 4) 0 1 := hmiddle ▸ ⟨_, hleaving, rfl, rfl⟩
  exact ⟨e, hstart, hfair, htime, hmiddle ▸ hentry,
    entry_forgotten (hstart ▸ serverBoot_twoKeys) hfair htime hdeparting⟩

end CsmProxy
