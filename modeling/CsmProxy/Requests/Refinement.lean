import CsmProxy.Requests.Sections
import CsmProxy.Sessions.Ownership

/-!
# The server refines the proxy

A run of the server is a run of the proxy in which every request of a tool has two tasks of
its own: `queueing`, an `enqueue` call, and `channel`, a `send_and_wait_for` call
(`server_refines`). So what holds of all runs of the proxy holds of the server.

A call of the proxy has its arguments from the start, and the corr of a request is drawn
later. The proof chooses the call when it begins: a task that has not stepped may have been
any other (`Pool.Reach.setTask`).
-/

namespace CsmProxy

open Foundations

/-- The number of the `enqueue` call of the request `number` of a task. -/
def queueing (task number : Nat) : Nat := Nat.pair task (2 * number + 1)

theorem queueing_ne_channel (me me' k k' : Nat) : queueing me k ≠ channel me' k' := by
  intro h
  have := (Nat.pair_eq_pair.mp h).2
  omega

theorem own_injective {me me' : Nat} (h : own me = own me') : me = me' :=
  (Nat.pair_eq_pair.mp h).1

theorem queueing_injective {me me' k k' : Nat} (h : queueing me k = queueing me' k') :
    me = me' ∧ k = k' := by
  have := Nat.pair_eq_pair.mp h
  omega

theorem channel_injective {me me' k k' : Nat} (h : channel me k = channel me' k') :
    me = me' ∧ k = k' := by
  have := Nat.pair_eq_pair.mp h
  omega

namespace RequestPc

/-- Where the `enqueue` call of the request is, until the envelope is queued or waited for. -/
def queueing : RequestPc → Option EnqueuePc
  | .enqueue pc => some pc
  | .wait _ .default => some .default
  | .wait _ (.resolve id) => some (.resolve id)
  | .wait _ (.nextCorr id) => some (.nextCorr id)
  | .wait _ _ => none

/-- The `send_and_wait_for` call that the request is in. -/
def sending : RequestPc → Option SendCall
  | .wait _ (.send call) => some call
  | _ => none

/-- The `enqueue` call of a request. -/
def enqueueCall (r : ToolRequest) (pc : EnqueuePc) : Task := .enqueue ⟨r.ackRequested, r.payload, pc, none⟩

/-- The tasks of the proxy are where the request of task `me` is. -/
structure Follows (me number : Nat) (r : ToolRequest) (pc : RequestPc) (task : Nat → Task) :
    Prop where
  queueing : ∀ q, pc.queueing = some q → task (CsmProxy.queueing me number) = enqueueCall r q
  sending : ∀ call, pc.sending = some call → task (channel me number) = .send call

theorem Follows.congr {me number : Nat} {r : ToolRequest} {pc : RequestPc} {task task' : Nat → Task}
    (h : pc.Follows me number r task)
    (hqueueing : task' (CsmProxy.queueing me number) = task (CsmProxy.queueing me number))
    (hchannel : task' (channel me number) = task (channel me number)) :
    pc.Follows me number r task' where
  queueing q hq := hqueueing.trans (h.queueing q hq)
  sending call hc := hchannel.trans (h.sending call hc)

theorem follows_start {me number : Nat} {r : ToolRequest} {id : Option String} {task : Nat → Task}
    (h : task (CsmProxy.queueing me number) = enqueueCall r (id.elim .default .resolve)) :
    (r.start id).Follows me number r task := by
  unfold ToolRequest.start
  constructor
  · intro q hq
    rw [h]
    cases hw : r.wait <;> cases id <;> rw [hw] at hq <;> cases hq <;> rfl
  · intro call hc
    cases hw : r.wait <;> cases id <;> rw [hw] at hc <;> cases hc

/-- The tasks that a section of the request may step. -/
def Steps (me number : Nat) (pc : RequestPc) (n : Nat) : Prop :=
  n = CsmProxy.queueing me number ∨ (pc.queueing = none ∧ n = channel me number)

theorem fire_enqueueCall {me number : Nat} {r : ToolRequest} {d : Config Host Task} {q : EnqueuePc}
    (hd : d.task (CsmProxy.queueing me number) = enqueueCall r q) :
    ∃ d', proxy.fire d (CsmProxy.queueing me number) .run = some d' ∧
      d'.shared = (q.step r.ackRequested r.payload d.shared).1 ∧
      ∀ q', (q.step r.ackRequested r.payload d.shared).2 = .inl q' →
        d'.task (CsmProxy.queueing me number) = enqueueCall r q' := by
  cases hq : q.step r.ackRequested r.payload d.shared with
  | mk h' out =>
    have hstep : ∃ l, proxy.step (CsmProxy.queueing me number) d.shared
        (d.task (CsmProxy.queueing me number)) .run = some (h', l) ∧
        ∀ q', out = .inl q' → l = enqueueCall r q' := by
      simp only [hd, proxy, enqueueCall, Task.step, EnqueueCall.step, hq]
      cases out with
      | inl q' => exact ⟨_, rfl, fun _ he => by cases he; rfl⟩
      | inr result => exact ⟨_, rfl, fun _ he => by cases he⟩
    obtain ⟨l, hl, hnext⟩ := hstep
    refine ⟨_, Pool.fire_eq_some.mpr ⟨h', l, hl, rfl⟩, rfl, fun q' hout => ?_⟩
    exact (Function.update_self (CsmProxy.queueing me number) l d.task).trans (hnext q' hout)

/-- A section of a request is at most one step of its two tasks. The `send_and_wait_for` call
has not stepped when its corr is drawn. -/
theorem simulate {me number : Nat} {r : ToolRequest} {pc : RequestPc} {d : Config Host Task}
    {i : Choice} {h' : Host} {out : RequestPc ⊕ Except String ToolReply}
    (hfollows : pc.Follows me number r d.task)
    (hs : pc.step (channel me number) r d.shared i = some (h', out)) :
    ∃ d', proxy.Reach (Pool.stepsIn (pc.Steps me number)) d d' ∧ d'.shared = h' ∧
      (∀ n, n ≠ CsmProxy.queueing me number → n ≠ channel me number → d'.task n = d.task n) ∧
      ∀ pc', out = .inl pc' → pc'.Follows me number r d'.task ∨
        (pc.queueing.isSome ∧ ∃ w call, pc' = .wait w (.send call) ∧ (Task.send call).Fresh) := by
  -- a section that an `enqueue` call makes as well
  have henqueue : ∀ q, pc.queueing = some q →
      ∃ d', proxy.Reach (Pool.stepsIn (pc.Steps me number)) d d' ∧
        d'.shared = (q.step r.ackRequested r.payload d.shared).1 ∧
        (∀ n, n ≠ CsmProxy.queueing me number → n ≠ channel me number → d'.task n = d.task n) ∧
        ∀ q', (q.step r.ackRequested r.payload d.shared).2 = .inl q' →
          d'.task (CsmProxy.queueing me number) = enqueueCall r q' := by
    intro q hq
    obtain ⟨d', hfire, hshared, hnext⟩ := fire_enqueueCall (hfollows.queueing q hq)
    have hok : pc.Steps me number (CsmProxy.queueing me number) := Or.inl rfl
    have hother := (fire_task hfire).2
    have hrun : proxy.Reach (Pool.stepsIn (pc.Steps me number)) d d' := .tail .refl hok hfire
    exact ⟨d', hrun, hshared, fun n hn _ => hother n hn, hnext⟩
  cases pc with
  | enqueue q =>
    obtain ⟨d', hrun, hshared, hother, hnext⟩ := henqueue q rfl
    cases i <;> simp only [step] at hs
    case run =>
      obtain ⟨hh, hout⟩ := Prod.mk.inj (Option.some.inj hs)
      refine ⟨d', hrun, hshared.trans hh, hother, fun pc' hpc' => ?_⟩
      rw [← hout] at hpc'
      cases hq : (q.step r.ackRequested r.payload d.shared).2 with
      | inr result => rw [hq] at hpc'; cases hpc'
      | inl q' =>
        rw [hq] at hpc'
        cases hpc'
        exact .inl ⟨fun _ he => by cases he; exact hnext q' hq, fun _ hc => by cases hc⟩
    all_goals cases hs
  | wait w pc =>
    obtain ⟨⟨g, res⟩, hpc, he⟩ := Option.map_eq_some_iff.mp hs
    cases he
    have hquiet : ∃ d', proxy.Reach (Pool.stepsIn (Steps me number (.wait w pc))) d d' ∧
        d'.shared = d.shared ∧
        ∀ n, n ≠ CsmProxy.queueing me number → n ≠ channel me number → d'.task n = d.task n :=
      ⟨d, .refl, rfl, fun _ _ _ => rfl⟩
    cases WaitPc.step_section hpc with
    | @default id hd =>
      obtain ⟨d', hrun, hshared, hother, hnext⟩ := henqueue .default rfl
      simp only [EnqueuePc.step, hd] at hshared hnext
      refine ⟨d', hrun, hshared, hother, fun pc' hout => ?_⟩
      cases hout
      exact .inl ⟨fun q hq => by cases hq; exact hnext _ rfl, fun _ hc => by cases hc⟩
    | @resolved id snap hr =>
      obtain ⟨d', hrun, hshared, hother, hnext⟩ := henqueue (.resolve id) rfl
      simp only [EnqueuePc.step, hr] at hshared hnext
      refine ⟨d', hrun, hshared, hother, fun pc' hout => ?_⟩
      cases hout
      exact .inl ⟨fun q hq => by cases hq; exact hnext _ rfl, fun _ hc => by cases hc⟩
    | @drawn id =>
      obtain ⟨d', hrun, hshared, hother, -⟩ := henqueue (.nextCorr id) rfl
      refine ⟨d', hrun, hshared, hother, fun pc' hout => ?_⟩
      cases hout
      exact .inr ⟨rfl, w, _, rfl, rfl⟩
    | @send call call' _ _ hcall =>
      have htask := hfollows.sending call rfl
      have hfire : proxy.fire d (channel me number) i =
          some (⟨h', Function.update d.task (channel me number) (.send call')⟩ : Config Host Task) := by
        refine Pool.fire_eq_some.mpr ⟨h', _, ?_, rfl⟩
        simp only [htask, proxy, Task.step, hcall, Option.map_some]
      refine ⟨_, .tail .refl (.inr ⟨rfl, rfl⟩) hfire, rfl, fun n _ hn => (fire_task hfire).2 n hn, ?_⟩
      intro pc' hout
      simp only [WaitPc.afterSend] at hout
      split at hout <;> cases hout
      · exact .inl ⟨fun _ hq => (by cases hq), fun _ hc => (by cases hc)⟩
      · refine .inl ⟨fun _ hq => (by cases hq), fun call'' he => ?_⟩
        cases he
        exact Function.update_self (channel me number) (Task.send call') d.task
    | noDefault | unresolved | read =>
      obtain ⟨d', hrun, hshared, hother⟩ := hquiet
      exact ⟨d', hrun, hshared, hother, fun _ hout => by cases hout⟩

/-- The first of the numbers that the request has not used. -/
def frontier (number : Nat) (pc : RequestPc) : Nat :=
  if pc.queueing.isSome then 2 * number + 2 else 2 * number + 3

end RequestPc

/-! ## Runs -/

/-- The parts of the task that may have stepped. -/
def Stage.Used : Stage → Nat → Prop
  | .before, _ => False
  | .request number _ pc, part => part < pc.frontier number
  | .task _, _ | .over, _ => True

/-- The tasks of the proxy that may have stepped. -/
def usedBy (c : Config Host ServerTask) (n : Nat) : Prop := (c.task n.unpair.1).stage.Used n.unpair.2

/-- The proxy is where the server is. -/
structure Embedded (c : Config Host ServerTask) (d : Config Host Task) : Prop where
  shared : d.shared = c.shared
  task : ∀ me t, (c.task me).stage = .task t → d.task (own me) = t
  request : ∀ me number r pc, (c.task me).stage = .request number r pc →
    pc.Follows me number r d.task

theorem RequestPc.queueing_of_follows {me number : Nat} {r : ToolRequest} {pc pc' : RequestPc}
    {h h' : Host} {i : Choice} (hs : pc.step (channel me number) r h i = some (h', .inl pc')) :
    pc'.queueing.isSome → pc.queueing.isSome := by
  cases pc with
  | enqueue q => exact fun _ => rfl
  | wait w pc =>
    obtain ⟨⟨g, res⟩, hpc, he⟩ := Option.map_eq_some_iff.mp hs
    cases WaitPc.step_section hpc with
    | @send call call' =>
      intro hq
      simp only [WaitPc.afterSend] at he
      split at he <;> cases he <;> cases hq
    | read => cases he
    | _ => exact fun _ => rfl

/-- What has stepped has still stepped after a section. -/
theorem Stage.Section.used {me : Nat} {h h' : Host} {i : Choice} {s s' : Stage} {part : Nat}
    (hs : Stage.Section me h i h' s s') (hpart : s.Used part) : s'.Used part := by
  cases hs with
  | task | refused | returns => trivial
  | resolving | begins => exact hpart.elim
  | @advances k r pc pc' h' step =>
    have hkeep := RequestPc.queueing_of_follows step
    change part < pc'.frontier k
    have hlt : part < pc.frontier k := hpart
    unfold RequestPc.frontier at hlt ⊢
    split <;> split at hlt <;> first | omega | (rename_i h₁ h₂; exact absurd (hkeep h₁) h₂)
  | @follows k r r' pc h' value id step =>
    have hlt : part < pc.frontier k := hpart
    change part < (r'.start id).frontier (k + 1)
    unfold RequestPc.frontier at hlt ⊢
    split <;> split at hlt <;> omega

section Step

variable {c c' : Config Host ServerTask} {d₀ d d' : Config Host Task} {me : Nat} {i : Choice}

theorem usedBy_step (hf : server.fire c me i = some c') {n : Nat} (hn : usedBy c n) : usedBy c' n := by
  obtain ⟨hs, hother⟩ := fire_stage hf
  unfold usedBy at hn ⊢
  by_cases hme : n.unpair.1 = me
  · rw [hme] at hn ⊢
    exact hs.used hn
  · rw [hother _ hme]
    exact hn

/-- Only the tasks of `me` have moved. -/
theorem Embedded.update (he : Embedded c d) (hother : ∀ t, t ≠ me → c'.task t = c.task t)
    (hshared : d'.shared = c'.shared) (hsame : ∀ n, n.unpair.1 ≠ me → d'.task n = d.task n)
    (htask : ∀ t, (c'.task me).stage = .task t → d'.task (own me) = t)
    (hrequest : ∀ number r pc, (c'.task me).stage = .request number r pc →
      pc.Follows me number r d'.task) : Embedded c' d' where
  shared := hshared
  task t u hu := by
    by_cases ht : t = me
    · subst ht
      exact htask u hu
    · rw [hother t ht] at hu
      exact (hsame _ (by rwa [own, Nat.unpair_pair])).trans (he.task t u hu)
  request t number r pc hpc := by
    by_cases ht : t = me
    · subst ht
      exact hrequest number r pc hpc
    · rw [hother t ht] at hpc
      exact (he.request t number r pc hpc).congr (hsame _ (by rwa [queueing, Nat.unpair_pair]))
        (hsame _ (by rwa [channel, Nat.unpair_pair]))

/-- A run of the proxy to where the server is, in which no other task has stepped. -/
structure Simulates (c : Config Host ServerTask) (d₀ d : Config Host Task) : Prop where
  boot : Boot d₀
  run : proxy.Reach (Pool.stepsIn (usedBy c)) d₀ d
  embedded : Embedded c d

theorem Boot.setTask (boot : Boot d₀) (t : Nat) {l : Task} (hl : l.Fresh) : Boot (d₀.setTask t l) where
  shared := boot.shared
  fresh t' := by
    by_cases ht : t' = t
    · subst ht
      rw [Config.setTask_self]
      exact hl
    · rw [Config.setTask_of_ne ht]
      exact boot.fresh t'

theorem fresh_enqueueCall (r : ToolRequest) (id : Option String) :
    (RequestPc.enqueueCall r (id.elim .default .resolve)).Fresh := by
  cases id with
  | none => exact ⟨rfl, .inl rfl⟩
  | some id => exact ⟨rfl, .inr ⟨id, rfl⟩⟩

namespace Simulates

theorem reach (sim : Simulates c d₀ d) : proxy.Reach Pool.anyStep d₀ d :=
  sim.run.mono fun _ _ _ _ => trivial

/-- Nothing but the stage of the task has changed. -/
theorem quiet (sim : Simulates c d₀ d) (hf : server.fire c me i = some c')
    (hshared : c'.shared = c.shared) (htask : ∀ t, (c'.task me).stage ≠ .task t)
    (hrequest : ∀ number r pc, (c'.task me).stage ≠ .request number r pc) :
    Simulates c' d₀ d where
  boot := sim.boot
  run := sim.run.mono fun _ _ _ hn => usedBy_step hf hn
  embedded := sim.embedded.update (fire_stage hf).2 (sim.embedded.shared.trans hshared.symm)
    (fun _ _ => rfl) (fun t h => absurd h (htask t)) fun number r pc h => absurd h (hrequest number r pc)

/-- A call begins that has not stepped. -/
theorem begin (boot : Boot d₀) (run : proxy.Reach (Pool.stepsIn (usedBy c)) d₀ d)
    (hf : server.fire c me i = some c') {n : Nat} (hn : ¬ usedBy c n) {l : Task} (hl : l.Fresh)
    (he : Embedded c' (d.setTask n l)) : Simulates c' (d₀.setTask n l) (d.setTask n l) where
  boot := boot.setTask n hl
  run := (run.setTask hn l).mono fun _ _ _ hn => usedBy_step hf hn
  embedded := he

/-- The next request of a batch begins. -/
theorem beginRequest (sim : Simulates c d₀ d) (hf : server.fire c me i = some c')
    (hrun : proxy.Reach (Pool.stepsIn (usedBy c)) d d') (hshared : d'.shared = c'.shared)
    (hsame : ∀ n, n.unpair.1 ≠ me → d'.task n = d.task n) {number : Nat} {r : ToolRequest}
    {id : Option String} (hunused : ¬ usedBy c (queueing me number))
    (hstage : (c'.task me).stage = .request number r (r.start id)) :
    ∃ d₀' d', Simulates c' d₀' d' := by
  let call := RequestPc.enqueueCall r (id.elim .default .resolve)
  have he : Embedded c' (d'.setTask (queueing me number) call) := by
    refine sim.embedded.update (fire_stage hf).2 hshared ?_ ?_ ?_
    · intro n hn
      have hne : n ≠ queueing me number := by
        rintro rfl
        rw [queueing, Nat.unpair_pair] at hn
        exact hn rfl
      exact (Config.setTask_of_ne hne).trans (hsame n hn)
    · intro t ht
      rw [hstage] at ht
      cases ht
    · intro number' r' pc hpc
      rw [hstage] at hpc
      cases hpc
      exact RequestPc.follows_start (Config.setTask_self ..)
  exact ⟨_, _, begin sim.boot (sim.run.trans hrun) hf hunused (fresh_enqueueCall r id) he⟩

theorem step (sim : Simulates c d₀ d) (hf : server.fire c me i = some c') :
    ∃ d₀' d', Simulates c' d₀' d' := by
  obtain ⟨hs, hother⟩ := fire_stage hf
  have hshared := sim.embedded.shared
  generalize hst : (c.task me).stage = st at hs
  generalize hst' : (c'.task me).stage = st' at hs
  generalize hh : c'.shared = h' at hs
  -- what a section of a request does to the proxy
  have hsection : ∀ {number r pc out}, st = .request number r pc →
      pc.step (channel me number) r c.shared i = some (h', out) →
      ∃ d', proxy.Reach (Pool.stepsIn (usedBy c)) d d' ∧ d'.shared = c'.shared ∧
        (∀ n, n.unpair.1 ≠ me → d'.task n = d.task n) ∧
        (∀ n, n ≠ queueing me number → n ≠ channel me number → d'.task n = d.task n) ∧
        ∀ pc', out = .inl pc' → pc'.Follows me number r d'.task ∨
          (pc.queueing.isSome ∧ ∃ w call, pc' = .wait w (.send call) ∧ (Task.send call).Fresh) := by
    intro number r pc out hpc hstep
    rw [hpc] at hst
    rw [← hshared] at hstep
    obtain ⟨d', hrun, hd', hsame, hnext⟩ :=
      RequestPc.simulate (sim.embedded.request me number r pc hst) hstep
    refine ⟨d', hrun.mono ?_, hd'.trans hh.symm, ?_, hsame, hnext⟩
    · intro _ n _ hn
      rcases hn with rfl | ⟨hq, rfl⟩
      · simp only [Pool.stepsIn, usedBy, queueing, Nat.unpair_pair, hst, Stage.Used,
          RequestPc.frontier]
        split <;> omega
      · simp only [Pool.stepsIn, usedBy, channel, Nat.unpair_pair, hst, Stage.Used,
          RequestPc.frontier, hq, Option.isSome_none, Bool.false_eq_true, if_false]
        omega
    · intro n hn
      refine hsame n ?_ ?_ <;> rintro rfl <;> exact hn (by simp [queueing, channel])
  cases hs with
  | @task t t' _ noSend hstep =>
    have htask := sim.embedded.task me t hst
    have hfire : proxy.fire d (own me) i =
        some (⟨h', Function.update d.task (own me) t'⟩ : Config Host Task) := by
      refine Pool.fire_eq_some.mpr ⟨h', t', ?_, rfl⟩
      rw [htask, hshared]
      exact hstep
    have hused : usedBy c (own me) := by
      simp only [usedBy, own, Nat.unpair_pair, hst, Stage.Used]
    have hrun : proxy.Reach (Pool.stepsIn (usedBy c)) d ⟨h', Function.update d.task (own me) t'⟩ :=
      .tail .refl hused hfire
    refine ⟨d₀, _, sim.boot, (sim.run.trans hrun).mono fun _ _ _ hn => usedBy_step hf hn,
      sim.embedded.update hother hh.symm ?_ ?_ ?_⟩
    · intro n hn
      refine (fire_task hfire).2 n ?_
      rintro rfl
      exact hn (by simp [own])
    · intro u hu
      rw [hst'] at hu
      cases hu
      exact Function.update_self (own me) t' d.task
    · intro number r pc hpc
      rw [hst'] at hpc
      cases hpc
  | resolving | refused =>
    refine ⟨d₀, d, sim.quiet hf hh ?_ ?_⟩ <;> intros <;> rw [hst'] <;> nofun
  | begins =>
    refine sim.beginRequest hf .refl (hshared.trans hh.symm) (fun _ _ => rfl) ?_ hst'
    simp only [usedBy, queueing, Nat.unpair_pair, hst, Stage.Used, not_false_eq_true]
  | @advances number r pc pc' _ hstep =>
    obtain ⟨d', hrun, hd', hsame, -, hnext⟩ := hsection rfl hstep
    have htask : ∀ t, (c'.task me).stage ≠ .task t := by
      intro t ht
      rw [hst'] at ht
      cases ht
    rcases hnext pc' rfl with hfollows | ⟨hq, w, call, rfl, hfresh⟩
    · refine ⟨d₀, d', sim.boot, (sim.run.trans hrun).mono fun _ _ _ hn => usedBy_step hf hn,
        sim.embedded.update hother hd' hsame (fun t ht => absurd ht (htask t)) ?_⟩
      intro number' r' pc'' hpc
      rw [hst'] at hpc
      cases hpc
      exact hfollows
    · have hunused : ¬ usedBy c (channel me number) := by
        simp only [usedBy, channel, Nat.unpair_pair, hst, Stage.Used, RequestPc.frontier, hq,
          if_true]
        omega
      have he : Embedded c' (d'.setTask (channel me number) (.send call)) := by
        refine sim.embedded.update hother hd' ?_ (fun t ht => absurd ht (htask t)) ?_
        · intro n hn
          have hne : n ≠ channel me number := by
            rintro rfl
            rw [channel, Nat.unpair_pair] at hn
            exact hn rfl
          exact (Config.setTask_of_ne hne).trans (hsame n hn)
        · intro number' r' pc'' hpc
          rw [hst'] at hpc
          cases hpc
          refine ⟨fun q hq => (by cases hq), fun call' hc => ?_⟩
          cases hc
          exact Config.setTask_self ..
      exact ⟨_, _, begin sim.boot (sim.run.trans hrun) hf hunused hfresh he⟩
  | @follows number r r' pc _ value id hstep =>
    obtain ⟨d', hrun, hd', hsame, -⟩ := hsection rfl hstep
    refine sim.beginRequest hf hrun hd' hsame ?_ hst'
    simp only [usedBy, queueing, Nat.unpair_pair, hst, Stage.Used, RequestPc.frontier]
    split <;> omega
  | @returns number r pc _ result hstep =>
    obtain ⟨d', hrun, hd', hsame, -⟩ := hsection rfl hstep
    refine ⟨d₀, d', sim.boot, (sim.run.trans hrun).mono fun _ _ _ hn => usedBy_step hf hn,
      sim.embedded.update hother hd' hsame ?_ ?_⟩ <;> intros <;> simp_all

end Simulates

end Step

/-- The tasks of the proxy for a task of the server that is about to run. -/
def Stage.parts : Stage → Nat → Task
  | .task t, 0 => t
  | .request _ r pc, 1 => pc.queueing.elim .environment (RequestPc.enqueueCall r)
  | _, _ => .environment

/-- A task that has not stepped is a task of the proxy, before its first request, at its first
request, or refuses its arguments. -/
theorem ServerTask.Fresh.stage {t : ServerTask} (h : t.Fresh) :
    (∃ u : Task, t.stage = .task u ∧ u.Fresh) ∨ t.stage = .before ∨ t.stage = .over ∨
      ∃ r id, t.stage = .request 0 r (r.start id) := by
  cases t with
  | task u => exact .inl ⟨u, rfl, h⟩
  | tool c =>
    obtain ⟨r, state⟩ := c
    rcases h with ⟨id, hstate⟩ | ⟨err, hstate⟩
    · obtain rfl : state = .inl (r.start id) := hstate
      exact .inr (.inr (.inr ⟨r, id, rfl⟩))
    · obtain rfl : state = .inr (.error err) := hstate
      exact .inr (.inr (.inl rfl))
  | batch c =>
    obtain ⟨id, hc⟩ := h
    rw [hc]
    cases id <;> exact .inr (.inl rfl)

/-- The configuration of the proxy in which the tasks of the server are about to run. -/
def asProxy (c : Config Host ServerTask) : Config Host Task :=
  ⟨c.shared, fun n => (c.task n.unpair.1).stage.parts n.unpair.2⟩

theorem ToolRequest.queueing_start (r : ToolRequest) (id : Option String) :
    (r.start id).queueing = some (id.elim .default .resolve) := by
  unfold ToolRequest.start
  cases r.wait <;> cases id <;> rfl

theorem ServerBoot.simulates {c : Config Host ServerTask} (boot : ServerBoot c) :
    Simulates c (asProxy c) (asProxy c) where
  boot := by
    refine ⟨boot.shared, fun n => ?_⟩
    change ((c.task n.unpair.1).stage.parts n.unpair.2).Fresh
    rcases (boot.fresh n.unpair.1).stage with ⟨u, hu, hfresh⟩ | hb | ho | ⟨r, id, hr⟩
    · rw [hu]
      cases n.unpair.2 with
      | zero => exact hfresh
      | succ part => trivial
    · rw [hb]
      trivial
    · rw [ho]
      trivial
    · rw [hr]
      rcases n.unpair.2 with _ | _ | part
      · trivial
      · rw [Stage.parts, ToolRequest.queueing_start]
        exact fresh_enqueueCall r id
      · trivial
  run := .refl
  embedded := by
    refine ⟨rfl, fun me t ht => ?_, fun me number r pc hpc => ?_⟩
    · change (c.task (own me).unpair.1).stage.parts (own me).unpair.2 = t
      rw [own, Nat.unpair_pair, ht]
      rfl
    · rcases (boot.fresh me).stage with ⟨u, hu, -⟩ | hb | ho | ⟨r', id, hr⟩
      · rw [hu] at hpc; cases hpc
      · rw [hb] at hpc; cases hpc
      · rw [ho] at hpc; cases hpc
      · rw [hr] at hpc
        cases hpc
        refine RequestPc.follows_start ?_
        change (c.task (queueing me 0).unpair.1).stage.parts (queueing me 0).unpair.2 = _
        rw [queueing, Nat.unpair_pair, hr]
        simp only [Nat.mul_zero, Nat.zero_add, Stage.parts, ToolRequest.queueing_start,
          Option.elim_some]

theorem Simulates.of_reach {c₀ c : Config Host ServerTask} (boot : ServerBoot c₀)
    (run : server.Reach Pool.anyStep c₀ c) : ∃ d₀ d, Simulates c d₀ d := by
  induction run with
  | refl => exact ⟨_, _, boot.simulates⟩
  | tail _ _ fire ih =>
    obtain ⟨d₀, d, sim⟩ := ih
    exact sim.step fire

/-- Where a run of the server is, a run of the proxy is. -/
theorem server_refines {c₀ c : Config Host ServerTask} (boot : ServerBoot c₀)
    (run : server.Reach Pool.anyStep c₀ c) :
    ∃ d₀ d, Boot d₀ ∧ proxy.Reach Pool.anyStep d₀ d ∧ Embedded c d := by
  obtain ⟨d₀, d, sim⟩ := Simulates.of_reach boot run
  exact ⟨d₀, d, sim.boot, sim.reach, sim.embedded⟩

/-! ## A batch of two keys -/

/-- A simulator connects, and a batch presses two keys. -/
def twoKeys : Config Host ServerTask :=
  serveWith [.task externalStream,
    .batch (.start (some "a") {} [{ kind := "key", name := "up" }, { kind := "key", name := "power" }])]

theorem serverBoot_twoKeys : ServerBoot twoKeys := by
  refine serverBoot_serveWith fun t ht => ?_
  rcases List.mem_pair.mp ht with rfl | rfl
  · rfl
  · exact ⟨some "a", rfl⟩

/-- The simulator connects and answers both requests of the batch. -/
def answerTwice : List (Nat × Choice) :=
  let answer (corr : UInt64) : List (Nat × Choice) :=
    [(0, .item (.message { corr, payload := some (.uiResult {}) })), (0, .run), (0, .run), (0, .run),
      (0, .run), (0, .run)]
  let request : List (Nat × Choice) := List.replicate 6 (1, .run)
  [(0, registerAs "a"), (0, .run), (0, .run), (1, .run)] ++ request ++ answer 1 ++
    [(1, .run), (1, .run)] ++ request ++ answer 2 ++ [(1, .run)]

/-- The second request of the batch, about to read its reply. -/
def secondKeyAnswered : Stage :=
  .request 1 ⟨true, .injectKey "power" 0, some ⟨.uiResult, replyTimeout, .inject⟩⟩
    (.wait ⟨.uiResult, replyTimeout, .inject⟩
      (.read "a" 2 { corr := 2, payload := some (.uiResult {}) }))

theorem server_refines_twoKeys :
    ∃ c, server.Reach Pool.anyStep twoKeys c ∧ (c.task 1).stage = secondKeyAnswered ∧
      ∃ d₀ d, Boot d₀ ∧ proxy.Reach Pool.anyStep d₀ d ∧ Embedded c d := by
  obtain ⟨c, run, hst⟩ := server.exists_reach Pool.anyStep twoKeys answerTwice
    (fun c => (c.task 1).stage = secondKeyAnswered) (by decide +kernel)
  exact ⟨c, run, hst, server_refines serverBoot_twoKeys run⟩

end CsmProxy
