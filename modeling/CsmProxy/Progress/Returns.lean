import CsmProxy.Foundations.Executions
import CsmProxy.Progress.Readiness
import CsmProxy.Requests.Refinement

/-!
# Every call returns

If the server goes on for ever, time passes, and a task that can step is not left out for
ever, then the task comes to rest (`comes_to_rest`): a call of a tool or of the supervisor
returns, whatever the simulators send or do not send, and the handler of a stream is back at
its stream or is over. Only an `observe` call may go on, if it finds envelopes for ever.
-/

namespace CsmProxy

open Foundations

namespace ServerTask

/-- The call has returned; the handler waits for its stream or is over. -/
def atRest : ServerTask → Bool
  | .task (.session s) => s.pc.atRest
  | .task (.observe c) => match c.pc with | .returned _ => true | _ => false
  | .task (.view c) => match c.pc with | .returned _ => true | _ => false
  | .task (.enqueue c) => c.result.isSome
  | .task (.supervisor c) => c.returned
  | .task (.startInstance c) => match c.pc with | .returned _ => true | _ => false
  | .task (.shutdown c) => match c.pc with | .returned _ => true | _ => false
  | .task (.send _) | .task .environment => true
  | .tool c => match c.state with | .inl _ => false | .inr _ => true
  | .batch c => match c.pc with | .returned _ => true | _ => false

/-- How much the task has left to do at the time `now`. -/
def rank (now : Nat) : ServerTask → Rank
  | .task (.session s) => s.pc.rank
  | .task (.observe c) => c.rank now
  | .task (.view c) => CsmProxy.rank 0 0 c.pc.left
  | .task (.enqueue c) => CsmProxy.rank 0 0 c.left
  | .task (.supervisor c) => c.rank
  | .task (.startInstance c) => c.pc.rank now
  | .task (.shutdown c) => CsmProxy.rank 0 0 c.pc.left
  | .task (.send _) | .task .environment => CsmProxy.rank 0 0 0
  | .tool c => CsmProxy.rank 0 0 c.left
  | .batch c => CsmProxy.rank 0 0 (c.pc.left c.steps)

/-- What a task knows by itself that lets it go on. -/
structure Sane (t : ServerTask) : Prop where
  observe : ∀ c, t = .task (.observe c) → c.Polls
  request : ∀ k r pc, t.stage = .request k r pc → pc.Unreturned

end ServerTask

/-! ## The invariant of a task -/

theorem RequestPc.unreturned_start (r : ToolRequest) (id : Option String) :
    (r.start id).Unreturned := by
  intro w call hpc
  unfold ToolRequest.start at hpc
  cases hw : r.wait <;> cases id <;> rw [hw] at hpc <;> cases hpc

theorem WaitPc.afterSend_unreturned {call call' : SendCall} (h : afterSend call = .inl (.send call')) :
    ∀ result, call'.pc ≠ .returned result := by
  unfold afterSend at h
  split at h
  · cases h
  · cases h
  · rename_i hok herror
    cases h
    intro result hpc
    cases result with
    | ok reply => exact hok reply hpc
    | error err => exact herror err hpc

theorem RequestPc.step_unreturned {tx : Nat} {r : ToolRequest} {h h' : Host} {pc pc' : RequestPc}
    {i : Choice} (hs : pc.step tx r h i = some (h', .inl pc')) : pc'.Unreturned := by
  rintro w call rfl
  cases pc with
  | enqueue q =>
    cases i <;> simp only [step] at hs
    case run =>
      obtain ⟨-, hout⟩ := Prod.mk.inj (Option.some.inj hs)
      cases hq : (q.step r.ackRequested r.payload h).2 <;> rw [hq] at hout <;> cases hout
    all_goals cases hs
  | wait w' pc =>
    obtain ⟨⟨g, out⟩, hpc, he⟩ := Option.map_eq_some_iff.mp hs
    cases out with
    | inr result => cases he
    | inl pc' =>
      cases he
      have hsection := WaitPc.step_section hpc
      generalize hres : (Sum.inl (.send call) : WaitPc ⊕ Except ToolError ToolReply) = res at hsection
      cases hsection with
      | drawn =>
        cases hres
        intro result hreturned
        cases hreturned
      | send => exact WaitPc.afterSend_unreturned hres.symm
      | _ => cases hres

namespace ServerTask.Sane

/-- A section of a request leads to a request that goes on, or begins. -/
theorem of_section {me : Nat} {h h' : Host} {i : Choice} {s s' : Stage}
    (hs : Stage.Section me h i h' s s') :
    ∀ k r pc, s' = .request k r pc → pc.Unreturned := by
  intro k r pc hs'
  cases hs with
  | task | resolving | refused | returns => cases hs'
  | begins | follows => cases hs'; exact RequestPc.unreturned_start _ _
  | advances step => cases hs'; exact RequestPc.step_unreturned step

theorem of_fresh {t : ServerTask} (h : t.Fresh) : t.Sane where
  observe c ht := by
    subst ht
    obtain ⟨id, spec, rfl⟩ := h
    cases id <;> exact ⟨by simp [ObserveCall.start], by simp [ObserveCall.start]⟩
  request k r pc hst := by
    rcases h.stage with ⟨u, hu, -⟩ | hb | ho | ⟨r', id, hr⟩
    · rw [hu] at hst; cases hst
    · rw [hb] at hst; cases hst
    · rw [ho] at hst; cases hst
    · rw [hr] at hst
      cases hst
      exact RequestPc.unreturned_start _ _

theorem step {me : Nat} {h h' : Host} {t t' : ServerTask} {i : Choice} (sane : t.Sane)
    (hs : t.step me h i = some (h', t')) : t'.Sane where
  observe c ht' := by
    subst ht'
    cases t with
    | tool c' | batch c' =>
      obtain ⟨⟨g, c''⟩, -, he⟩ := Option.map_eq_some_iff.mp hs
      cases he
    | task u =>
      cases ServerTask.step_stage hs with
      | task noSend hstep =>
        cases u with
        | observe c₀ =>
          obtain ⟨⟨g, c₁⟩, hp, he⟩ := Option.map_eq_some_iff.mp hstep
          cases he
          exact (sane.observe c₀ rfl).step hp
        | send call => exact absurd rfl (noSend call)
        | _ =>
          obtain ⟨_, _, he⟩ := Option.map_eq_some_iff.mp hstep
          cases he
  request := of_section (ServerTask.step_stage hs)

theorem of_reach {c₀ c : Config Host ServerTask} (boot : ServerBoot c₀)
    (run : server.Reach Pool.anyStep c₀ c) (t : Nat) : (c.task t).Sane := by
  induction run with
  | refl => exact of_fresh (boot.fresh t)
  | @tail b c me i _ _ fire ih =>
    obtain ⟨hs, hother⟩ := fire_serverTask fire
    by_cases ht : t = me
    · subst ht
      exact ih.step hs
    · rw [hother t ht]
      exact ih

end ServerTask.Sane

/-! ## One section -/

/-- The observe call takes an envelope. -/
def Takes (h h' : Host) (t : ServerTask) : Prop :=
  (∃ c, t = .task (.observe c)) ∧ h'.pops ≠ h.pops

namespace ServerTask

/-- A section leaves less to do, or takes an envelope. -/
theorem step_rank {me : Nat} {h h' : Host} {t t' : ServerTask} {i : Choice} (sane : t.Sane)
    (hs : t.step me h i = some (h', t')) (busy : t.atRest = false) :
    t'.rank h'.now < t.rank h.now ∨ Takes h h' t := by
  cases t with
  | tool c =>
    obtain ⟨⟨g, c'⟩, hp, he⟩ := Option.map_eq_some_iff.mp hs
    cases he
    exact .inl (rank_lt_of_left (ToolTask.step_left hp))
  | batch c =>
    obtain ⟨⟨g, c'⟩, hp, he⟩ := Option.map_eq_some_iff.mp hs
    cases he
    exact .inl (rank_lt_of_left (BatchCall.step_left hp))
  | task u =>
    cases u with
    | send c | environment => cases busy
    | observe c =>
      obtain ⟨⟨g, u'⟩, hu, he⟩ := Option.map_eq_some_iff.mp hs
      cases he
      obtain ⟨⟨g, c'⟩, hp, he⟩ := Option.map_eq_some_iff.mp hu
      cases he
      by_cases hpops : h'.pops = h.pops
      · exact .inl (ObserveCall.step_rank (sane.observe c rfl) hp hpops)
      · exact .inr ⟨⟨c, rfl⟩, hpops⟩
    | _ =>
      obtain ⟨⟨g, u'⟩, hu, he⟩ := Option.map_eq_some_iff.mp hs
      cases he
      obtain ⟨⟨g, c'⟩, hp, he⟩ := Option.map_eq_some_iff.mp hu
      cases he
      first
        | exact .inl (Session.step_rank hp busy)
        | exact .inl (rank_lt_of_left (ViewCall.step_left hp))
        | exact .inl (rank_lt_of_left (EnqueueCall.step_left hp))
        | exact .inl (SupervisorCall.step_rank hp)
        | exact .inl (StartInstanceCall.step_rank hp)
        | exact .inl (rank_lt_of_left (ShutdownCall.step_left hp))

/-- Time that passes leaves nobody more to do. -/
theorem rank_antitone (t : ServerTask) : Antitone fun now => t.rank now := by
  intro now now' hle
  have hsub : ∀ deadline, deadline - now' ≤ deadline - now := fun deadline =>
    Nat.sub_le_sub_left hle deadline
  have hrank : ∀ {phase s r r' : Nat}, r' ≤ r →
      CsmProxy.rank phase r' s ≤ CsmProxy.rank phase r s := fun hr =>
    rank_le_iff.mpr (.inr ⟨rfl, (Nat.lt_or_eq_of_le hr).imp id fun he => ⟨he, Nat.le_refl _⟩⟩)
  cases t with
  | task u =>
    cases u with
    | observe c =>
      simp only [rank, ObserveCall.rank]
      split <;> (try split) <;> first | exact hrank (hsub _) | exact le_refl _
    | startInstance c =>
      simp only [rank, StartInstancePc.rank]
      split <;> first | exact hrank (hsub _) | exact le_refl _
    | _ => exact le_refl _
  | _ => exact le_refl _

/-- A task that does not rest can step once its time has come. -/
theorem ready (me : Nat) {t : ServerTask} (sane : t.Sane) (busy : t.atRest = false) :
    ReadyFrom (fun h t i => t.step me h i) t := by
  cases t with
  | tool c =>
    obtain ⟨r, state⟩ := c
    cases state with
    | inr result => cases busy
    | inl pc =>
      refine (RequestPc.ready (channel me 0) r (sane.request 0 r pc rfl)).map fun h i =>
        ⟨fun s => (s.1, .tool ⟨r, s.2⟩), ?_⟩
      simp only [step, ToolTask.step, Option.map_map]
      rfl
  | batch c =>
    obtain ⟨shared, steps, pc⟩ := c
    cases pc with
    | default =>
      refine .always fun h => ⟨.run, ?_⟩
      simp only [step, BatchCall.step]
      cases h.instances.defaultInstance <;> exact ⟨_, rfl⟩
    | resolve id =>
      refine .always fun h => ⟨.run, ?_⟩
      simp only [step, BatchCall.step]
      cases h.instances.resolve id <;> exact ⟨_, rfl⟩
    | step id index results r pc rest =>
      refine (RequestPc.ready (channel me index) r (sane.request index r pc rfl)).map fun h i => ?_
      simp only [step, BatchCall.step, Option.map_map]
      exact ⟨_, rfl⟩
    | returned result => cases busy
  | task u =>
    -- the sections of a task of the proxy are those of its call
    have htask : ∀ {α : Type} {call : α} {step' : Host → α → Choice → Option (Host × α)}
        {wrap : α → Task}, ReadyFrom step' call →
        (∀ h i, ServerTask.step me h (.task u) i =
          ((step' h call i).map fun r => (r.1, wrap r.2)).map fun r => (r.1, .task r.2)) →
        ReadyFrom (fun h t i => ServerTask.step me h t i) (.task u) := fun hready hstep =>
      hready.map fun h i => ⟨_, by rw [hstep, Option.map_map]⟩
    cases u with
    | send c | environment => cases busy
    | session sn => exact htask (Session.ready busy) fun _ _ => rfl
    | observe c =>
      have hbusy : ∀ result, c.pc ≠ .returned result := fun result hpc => by simp [atRest, hpc] at busy
      exact htask (ObserveCall.ready (own me) (sane.observe c rfl) hbusy) fun _ _ => rfl
    | view c =>
      have hbusy : ∀ result, c.pc ≠ .returned result := fun result hpc => by simp [atRest, hpc] at busy
      exact htask (ViewCall.ready hbusy) fun _ _ => rfl
    | enqueue c =>
      have hbusy : c.result = none := by simpa [atRest] using busy
      exact htask (EnqueueCall.ready hbusy) fun _ _ => rfl
    | supervisor c => exact htask (SupervisorCall.ready (own me) busy) fun _ _ => rfl
    | startInstance c =>
      have hbusy : ∀ result, c.pc ≠ .returned result := fun result hpc => by simp [atRest, hpc] at busy
      exact htask (StartInstanceCall.ready (own me) hbusy) fun _ _ => rfl
    | shutdown c =>
      have hbusy : ∀ queued, c.pc ≠ .returned queued := fun queued hpc => by simp [atRest, hpc] at busy
      exact htask (ShutdownCall.ready (own me) hbusy) fun _ _ => rfl

end ServerTask

/-! ## Time -/

theorem RequestPc.step_now {tx : Nat} {r : ToolRequest} {h h' : Host} {pc : RequestPc} {i : Choice}
    {out : RequestPc ⊕ Except String ToolReply} (hs : pc.step tx r h i = some (h', out)) :
    h'.now = h.now := by
  cases pc with
  | enqueue q =>
    obtain ⟨m, hm⟩ := EnqueuePc.step_footprint r.ackRequested r.payload h q
    cases i <;> simp only [step] at hs
    case run =>
      obtain ⟨rfl, -⟩ := Prod.mk.inj (Option.some.inj hs)
      rw [hm]
    all_goals cases hs
  | wait w pc =>
    obtain ⟨⟨g, res⟩, hpc, he⟩ := Option.map_eq_some_iff.mp hs
    cases he
    cases WaitPc.step_section hpc with
    | send hcall =>
      obtain ⟨m, o, rfl⟩ := SendCall.step_footprint hcall
      rfl
    | _ => rfl

theorem Task.step_now {me : Nat} {h h' : Host} {t t' : Task} {i : Choice}
    (hs : t.step me h i = some (h', t')) : h.now ≤ h'.now := by
  cases t with
  | environment =>
    obtain ⟨g, hp, he⟩ := Option.map_eq_some_iff.mp hs
    cases he
    cases i <;> cases hp <;> first | exact Nat.le_refl _ | exact Nat.le_add_right ..
  | _ =>
    obtain ⟨⟨g, c'⟩, hp, he⟩ := Option.map_eq_some_iff.mp hs
    cases he
    refine Nat.le_of_eq ?_
    first
      | obtain ⟨m, o, rfl⟩ := Session.step_footprint hp; rfl
      | obtain ⟨m, o, rfl⟩ := SendCall.step_footprint hp; rfl
      | obtain ⟨m, p, rfl⟩ := ObserveCall.step_footprint hp; rfl
      | obtain ⟨m, rfl⟩ := ViewCall.step_footprint hp; rfl
      | obtain ⟨m, rfl⟩ := EnqueueCall.step_footprint hp; rfl
      | obtain ⟨s, p, rfl⟩ := SupervisorCall.step_footprint hp; rfl
      | obtain ⟨s, p, rfl⟩ := StartInstanceCall.step_footprint hp; rfl
      | obtain ⟨m, s, p, rfl⟩ := ShutdownCall.step_footprint hp; rfl

/-- The clock does not go back. -/
theorem fire_now {c c' : Config Host ServerTask} {me : Nat} {i : Choice}
    (hf : server.fire c me i = some c') : c.shared.now ≤ c'.shared.now := by
  have hs := (fire_stage hf).1
  generalize (c.task me).stage = s at hs
  generalize (c'.task me).stage = s' at hs
  generalize c'.shared = h' at hs ⊢
  cases hs with
  | task _ step => exact Task.step_now step
  | resolving | refused | begins => exact Nat.le_refl _
  | advances step | follows step | returns step => exact (RequestPc.step_now step).ge

/-! ## The theorem -/

/-- Time passes without end. -/
def TimePasses (e : server.Execution) : Prop := ∀ time, ∃ n, time ≤ (e.config n).shared.now

/-- Task `t` takes an envelope at the moment `n`. -/
def TakesAt (e : server.Execution) (t n : Nat) : Prop :=
  (e.turn n).1 = t ∧ Takes (e.config n).shared (e.config (n + 1)).shared (e.taskAt n t)

/-- In an execution in which time passes, a task that is treated fairly and takes no more
envelopes comes to rest. -/
theorem rests_unless_takes {e : server.Execution} {t last : Nat} (boot : ServerBoot (e.config 0))
    (fair : e.Fair t) (time : TimePasses e) (takesNoMore : ∀ k, last ≤ k → ¬ TakesAt e t k)
    (n : Nat) : ∃ m, n ≤ m ∧ (e.taskAt m t).atRest = true := by
  have hsane : ∀ k, (e.taskAt k t).Sane := fun k => ServerTask.Sane.of_reach boot (e.reach k) t
  have hrest : ∃ m, max n last ≤ m ∧ (e.taskAt m t).atRest = true := by
    refine fair.settles (fun l => l.atRest = true) (fun h l => l.rank h.now) ?_ ?_ ?_
      (Nat.le_max_right n last)
    · intro k hk hturn hbusy
      rcases ServerTask.step_rank (hsane k) (Pool.Execution.step_of_turn hturn) (by simpa using hbusy) with
        hless | htake
      · exact hless
      · exact absurd ⟨hturn, htake⟩ (takesNoMore k hk)
    · exact fun k l => l.rank_antitone (fire_now (e.fires k))
    · intro k _ hbusy
      obtain ⟨start, hready⟩ := ServerTask.ready t (hsane k) (by simpa using hbusy)
      obtain ⟨m, hm⟩ := time start
      refine ⟨max k m, Nat.le_max_left k m, fun j hj hsame => Pool.ready_iff.mpr ?_⟩
      have hlate : start ≤ (e.config j).shared.now :=
        hm.trans (Pool.Execution.keeps (p := fun c => (e.config m).shared.now ≤ c.shared.now)
          ((Nat.le_max_right k m).trans hj) (Nat.le_refl _)
          fun _ _ _ _ hle hf => hle.trans (fire_now hf))
      have hsame : (e.config j).task t = e.taskAt k t := hsame
      rw [hsame]
      exact hready (e.config j).shared hlate
  obtain ⟨m, hm, hat⟩ := hrest
  exact ⟨m, (Nat.le_max_left n last).trans hm, hat⟩

/-- In an execution in which time passes, a task that is treated fairly comes to rest from
wherever it is, or takes envelopes for ever. -/
theorem comes_to_rest {e : server.Execution} {t : Nat} (boot : ServerBoot (e.config 0))
    (fair : e.Fair t) (time : TimePasses e) (n : Nat) :
    (∃ m, n ≤ m ∧ (e.taskAt m t).atRest = true) ∨ ∀ m, ∃ k, m ≤ k ∧ TakesAt e t k := by
  by_cases htakes : ∀ m, ∃ k, m ≤ k ∧ TakesAt e t k
  · exact .inr htakes
  · obtain ⟨last, hlast⟩ := not_forall.mp htakes
    exact .inl (rests_unless_takes boot fair time (fun k hk htake => hlast ⟨k, hk, htake⟩) n)

/-! ## A batch that is not answered -/

/-- From here on nothing happens but that time passes. -/
def ticking (c : Config Host ServerTask) {t : Nat} (ht : c.task t = .task .environment) :
    server.Execution where
  config n := ⟨{ c.shared with now := c.shared.now + n }, c.task⟩
  turn _ := (t, .tick 1)
  fires n := by
    refine Pool.fire_eq_some.mpr ⟨{ c.shared with now := c.shared.now + n + 1 }, c.task t, ?_, ?_⟩
    · simp only [server, ServerTask.step, ht, Task.step, environmentStep, Option.map_some]
    · rw [Function.update_eq_self]
      rfl

theorem timePasses_ticking (c : Config Host ServerTask) {t : Nat} (ht : c.task t = .task .environment) :
    TimePasses (ticking c ht) := fun time => ⟨time, Nat.le_add_left time c.shared.now⟩

/-- After two schedules, nothing happens to the task but that time passes. -/
theorem exists_execution {a b c : Config Host ServerTask} {τ τ' : List (Nat × Choice)} {t idle : Nat}
    (hexec : server.exec Pool.anyStep a τ = some b) (hexec' : server.exec Pool.anyStep b τ' = some c)
    (hidle : c.task idle = .task .environment) (hstuck : ∀ h i, (c.task t).step t h i = none) :
    ∃ e : server.Execution, e.config 0 = a ∧ e.config τ.length = b ∧ e.Fair t ∧ TimePasses e := by
  have hfair : (ticking c hidle).Fair t := by
    refine Pool.Execution.fair_of_stuck fun n => ⟨n, Nat.le_refl n, fun hready => ?_⟩
    obtain ⟨i, r, hs⟩ := Pool.ready_iff.mp hready
    have hs : (c.task t).step t ((ticking c hidle).config n).shared i = some r := hs
    rw [hstuck] at hs
    cases hs
  obtain ⟨e', hstart', htail'⟩ := (ticking c hidle).after hexec'
  obtain ⟨e, hstart, htail⟩ := e'.after (hstart'.symm ▸ hexec)
  refine ⟨e, hstart, ?_, .of_tail htail (.of_tail htail' hfair), fun time => ?_⟩
  · rw [← hstart']
    exact (htail 0).1
  · obtain ⟨n, hn⟩ := timePasses_ticking c hidle time
    refine ⟨τ.length + (τ'.length + n), ?_⟩
    rw [(htail _).1, (htail' _).1]
    exact hn

/-- The simulator connects, and the batch queues its first request. -/
def awaitAnswer : List (Nat × Choice) :=
  [(0, registerAs "a"), (0, .run), (0, .run), (1, .run)] ++ List.replicate 6 (1, .run)

/-- No answer comes, and the first request times out. -/
def timeOut : List (Nat × Choice) := (2, .tick replyTimeout) :: List.replicate 3 (1, .run)

/-- The batch has stopped at its first step. -/
def timedOut : ServerTask :=
  .batch {
    shared := {}
    steps := [{ kind := "key", name := "up" }, { kind := "key", name := "power" }]
    pc := .returned (.ok (.stoppedAt "a" 0 [] "timed out waiting for session reply")) }

theorem comes_to_rest_twoKeys :
    ∃ e : server.Execution, e.config 0 = twoKeys ∧ e.Fair 1 ∧ TimePasses e ∧
      (e.taskAt 10 1).atRest = false ∧
      ((∃ m, 10 ≤ m ∧ (e.taskAt m 1).atRest = true) ∨ ∀ m, ∃ k, m ≤ k ∧ TakesAt e 1 k) := by
  obtain ⟨b, hexec, hbusy, hend⟩ := server.exists_exec Pool.anyStep twoKeys awaitAnswer
    (fun b => (b.task 1).atRest = false ∧ (server.exec Pool.anyStep b timeOut).any (fun c =>
      c.task 2 = .task .environment ∧ c.task 1 = timedOut) = true) (by decide +kernel)
  obtain ⟨c, hexec', hidle, hover⟩ := server.exists_exec Pool.anyStep b timeOut
    (fun c => c.task 2 = .task .environment ∧ c.task 1 = timedOut) hend
  have hstuck : ∀ h i, (c.task 1).step 1 h i = none := by
    intro h i
    rw [hover]
    cases i <;> rfl
  obtain ⟨e, hstart, hmiddle, hfair, htime⟩ := exists_execution hexec hexec' hidle hstuck
  have hmiddle : e.config 10 = b := hmiddle
  have hat : (e.taskAt 10 1).atRest = false := by
    rw [Pool.Execution.taskAt, hmiddle]
    exact hbusy
  exact ⟨e, hstart, hfair, htime, hat,
    comes_to_rest (hstart ▸ serverBoot_twoKeys) hfair htime 10⟩

end CsmProxy
