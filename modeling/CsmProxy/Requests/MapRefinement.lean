import CsmProxy.Requests.Calls
import CsmProxy.Requests.MapUse

/-!
# The server is a user of the instance map

A run of the server is a run of the calls of the map that its tasks make: each
`send_and_wait_for` call goes by the number of its oneshot channel, and the other calls of a
task are numbered in the order in which they begin (`server_uses_map`). So what holds of all
runs of the calls of the map holds of the server.

The calls that a task will make are not known in advance. As in the refinement of the proxy,
a call is chosen when it begins, under a number that has not stepped.
-/

namespace CsmProxy

open Foundations

/-! ## One section -/

/-- What a section of task `me` does with the map. -/
inductive Stage.MapMove (me : Nat) (h : Host) (i : Choice) (h' : Host) (s s' : Stage) : Prop
  | uses (use : MapUse h h' s.inCall s'.inCall) (before : s.sending = none) (after : s'.sending = none)
  /-- A `send_and_wait_for` call begins when its corr is drawn. -/
  | draws {k : Nat} {r : ToolRequest} {pc : RequestPc} {w : Waiting} {call : SendCall}
    (use : MapUse h h' none none) (before : s = .request k r pc) (unsent : pc.queueing.isSome = true)
    (next : s' = .calling k r w call) (fresh : (MapCall.send call).Fresh)
    (corr : call.msg.corr = h.instances.nextCorr)
    (counter : h'.instances.nextCorr = h.instances.nextCorr + 1)
  | sends {k : Nat} {r : ToolRequest} {w : Waiting} {call call' : SendCall}
    (before : s = .calling k r w call) (step : call.step (channel me k) h i = some (h', call'))
    (quiet : s'.inCall = none)
    (next : s' = .calling k r w call' ∨ (s'.sending = none ∧ call'.pc.ended = true))

theorem RequestPc.step_mapMove {me k : Nat} {r : ToolRequest} {pc : RequestPc} {h h' : Host}
    {i : Choice} {out : RequestPc ⊕ Except String ToolReply} {s' : Stage}
    (hs : pc.step (channel me k) r h i = some (h', out))
    (hnext : ∀ pc', out = .inl pc' → s' = .request k r pc')
    (hlast : ∀ result, out = .inr result → s'.sending = none) (hquiet : s'.inCall = none) :
    Stage.MapMove me h i h' (.request k r pc) s' := by
  cases pc with
  | enqueue q =>
    cases i <;> simp only [step] at hs
    case run =>
      obtain ⟨rfl, rfl⟩ := Prod.mk.inj (Option.some.inj hs)
      refine .uses ?_ rfl ?_
      · rw [hquiet]
        exact (q.step_updates r.ackRequested r.payload h).uses
      · cases hq : (q.step r.ackRequested r.payload h).2 with
        | inl q' =>
          rw [hnext (.enqueue q') (by rw [hq]; rfl)]
          rfl
        | inr result => exact hlast _ (by rw [hq]; rfl)
    all_goals cases hs
  | wait w pc =>
    obtain ⟨⟨g, res⟩, hpc, he⟩ := Option.map_eq_some_iff.mp hs
    cases he
    cases WaitPc.step_section hpc with
    | default | resolved =>
      refine .uses (.spares rfl hquiet) rfl ?_
      rw [hnext _ rfl]
      rfl
    | noDefault | unresolved | read => exact .uses (.spares rfl hquiet) rfl (hlast _ rfl)
    | drawn =>
      exact .draws (Host.Updates.uses (.inr ⟨.nextCorr, rfl⟩)) rfl rfl (hnext _ rfl) rfl rfl rfl
    | @send call call' _ _ hcall =>
      refine .sends rfl hcall hquiet ?_
      cases hpc' : call'.pc with
      | returned result =>
        refine .inr ⟨?_, rfl⟩
        cases result with
        | ok reply =>
          rw [hnext (.wait w (.read call'.instanceId call'.msg.corr reply))
            (by simp only [WaitPc.afterSend, hpc']; rfl)]
          rfl
        | error err => exact hlast _ (by simp only [WaitPc.afterSend, hpc']; rfl)
      | _ => exact .inl (hnext (.wait w (.send call')) (by simp only [WaitPc.afterSend, hpc']; rfl))

theorem Stage.Section.mapMove {me : Nat} {h h' : Host} {i : Choice} {s s' : Stage}
    (hs : Stage.Section me h i h' s s') : Stage.MapMove me h i h' s s' := by
  cases hs with
  | task noSend step => exact .uses (Task.step_uses noSend step) rfl rfl
  | resolving | refused => exact .uses (.spares rfl rfl) rfl rfl
  | begins => exact .uses (.spares rfl rfl) rfl (Stage.idle_start ..).sending
  | advances step =>
    exact RequestPc.step_mapMove step (fun _ h => by cases h; rfl) (fun _ h => by cases h) rfl
  | follows step =>
    exact RequestPc.step_mapMove step (fun _ h => by cases h)
      (fun _ _ => (Stage.idle_start ..).sending) rfl
  | returns step =>
    exact RequestPc.step_mapMove step (fun _ h => by cases h) (fun _ _ => rfl) rfl

/-! ## The calls of a task -/

/-- The number of a call that a task makes, when it is no `send_and_wait_for` call. -/
def operation (task number : Nat) : Nat := Nat.pair task (2 * number + 1)

theorem operation_injective {me me' j j' : Nat} (h : operation me j = operation me' j') :
    me = me' ∧ j = j' := queueing_injective h

theorem operation_ne_channel (me me' j k : Nat) : operation me j ≠ channel me' k :=
  queueing_ne_channel me me' j k

/-- The calls that have begun: of those that are no `send_and_wait_for` calls, the first
`begun t` of each task `t`. -/
def Begun (c : Config Host ServerTask) (begun : Nat → Nat) (n : Nat) : Prop :=
  (∃ t j, n = operation t j ∧ j < begun t) ∨ ∃ t k, n = channel t k ∧ usedBy c n

theorem Begun.mono {c c' : Config Host ServerTask} {begun begun' : Nat → Nat} {n : Nat}
    (h : Begun c begun n) (hused : ∀ n, usedBy c n → usedBy c' n)
    (hbegun : ∀ t, begun t ≤ begun' t) : Begun c' begun' n := by
  rcases h with ⟨t, j, rfl, hj⟩ | ⟨t, k, rfl, hk⟩
  · exact .inl ⟨t, j, rfl, Nat.lt_of_lt_of_le hj (hbegun t)⟩
  · exact .inr ⟨t, k, rfl, hused _ hk⟩

/-- The calls of the map are where the server is. -/
structure MapEmbedded (c : Config Host ServerTask) (begun : Nat → Nat) (d : Config Host MapCall) :
    Prop where
  shared : d.shared = c.shared.mapPart
  inCall : ∀ t call, (c.task t).stage.inCall = some call →
    ∃ j, begun t = j + 1 ∧ d.task (operation t j) = call
  sending : ∀ t k r w call, (c.task t).stage = .calling k r w call →
    d.task (channel t k) = .send call
  noSend : ∀ t j, (d.task (operation t j)).sending = none
  /-- All calls but those that the tasks are in have returned, or have not begun. -/
  finished : ∀ n, (d.task n).finished = true ∨
    (∃ t j, n = operation t j ∧ begun t = j + 1 ∧ (c.task t).stage.inCall = some (d.task n)) ∨
    ∃ t k r w call, n = channel t k ∧ (c.task t).stage = .calling k r w call

/-- A run of the calls of the map to where the server is, in which no other call has begun. -/
structure UsesMap (ok : Pool.Guard Host MapCall Choice) (c : Config Host ServerTask)
    (begun : Nat → Nat) (d₀ d : Config Host MapCall) : Prop where
  boot : MapBoot d₀
  run : mapCalls.Reach (fun d n i => Begun c begun n ∧ ok d n i) d₀ d
  embedded : MapEmbedded c begun d

/-- A condition on the sections of the `send_and_wait_for` calls, each by itself. -/
structure OnSends (ok : Pool.Guard Host MapCall Choice) : Prop where
  others : ∀ d n i, (d.task n).sending = none → ok d n i
  alone : ∀ d n i t l, n ≠ t → ok d n i → ok (d.setTask t l) n i

theorem MapBoot.setTask {d₀ : Config Host MapCall} (boot : MapBoot d₀) (t : Nat) {l : MapCall}
    (hl : l.Fresh) : MapBoot (d₀.setTask t l) where
  shared := boot.shared
  fresh t' := by
    by_cases ht : t' = t
    · subst ht
      rw [Config.setTask_self]
      exact hl
    · rw [Config.setTask_of_ne ht]
      exact boot.fresh t'

theorem MapCall.step_noSend {n : Nat} {h h' : Host} {c c' : MapCall} {i : Choice}
    (hc : c.sending = none) (hs : c.step n h i = some (h', c')) : c'.sending = none := by
  cases c with
  | send call => cases hc
  | push id msg pc =>
    obtain ⟨pc₀, -, -, -, rfl⟩ := step_push hs
    rfl
  | removeIf id token pc =>
    cases pc with
    | none => cases hs
    | some pc =>
      obtain ⟨r, -, he⟩ := Option.map_eq_some_iff.mp hs
      cases he
      rfl
  | update u returned =>
    cases returned <;> cases i <;> cases hs
    rfl
  | environment =>
    obtain ⟨g, -, he⟩ := Option.map_eq_some_iff.mp hs
    cases he
    rfl
  | _ => cases i <;> cases hs <;> rfl

/-- The calls that are new in `d'`: at most one `send_and_wait_for` call, with this corr. -/
def SendsFrom (d d' : Config Host MapCall) (new : Option (Nat × UInt64)) : Prop :=
  ∀ n call', d'.task n = .send call' →
    (∃ call, d.task n = .send call ∧ call'.msg = call.msg) ∨ new = some (n, call'.msg.corr)

/-! ## One step of the run -/

section Step

variable {ok : Pool.Guard Host MapCall Choice} {c c' : Config Host ServerTask} {me : Nat}
  {i : Choice} {begun begun' : Nat → Nat} {d₀ d₀' d d' : Config Host MapCall}

/-- Only the calls of `me` have moved. -/
theorem MapEmbedded.update (he : MapEmbedded c begun d)
    (hother : ∀ t, t ≠ me → c'.task t = c.task t)
    (hshared : d'.shared = c'.shared.mapPart) (hbegun : ∀ t, t ≠ me → begun' t = begun t)
    (hsame : ∀ n, n.unpair.1 ≠ me → d'.task n = d.task n)
    (hinCall : ∀ call, (c'.task me).stage.inCall = some call →
      ∃ j, begun' me = j + 1 ∧ d'.task (operation me j) = call)
    (hsending : ∀ k r w call, (c'.task me).stage = .calling k r w call →
      d'.task (channel me k) = .send call)
    (hnoSend : ∀ j, (d'.task (operation me j)).sending = none)
    (hfinishedOperation : ∀ j, (d'.task (operation me j)).finished = true ∨
      (begun' me = j + 1 ∧ (c'.task me).stage.inCall = some (d'.task (operation me j))))
    (hfinished : ∀ n, n.unpair.1 = me → (∀ j, n ≠ operation me j) → (d'.task n).finished = true ∨
      ∃ k r w call, n = channel me k ∧ (c'.task me).stage = .calling k r w call) :
    MapEmbedded c' begun' d' where
  shared := hshared
  inCall t call hcall := by
    by_cases ht : t = me
    · subst ht
      exact hinCall call hcall
    · rw [hother t ht] at hcall
      obtain ⟨j, hj, htask⟩ := he.inCall t call hcall
      refine ⟨j, (hbegun t ht).trans hj, (hsame _ ?_).trans htask⟩
      rwa [operation, Nat.unpair_pair]
  sending t k r w call hst := by
    by_cases ht : t = me
    · subst ht
      exact hsending k r w call hst
    · rw [hother t ht] at hst
      refine (hsame _ ?_).trans (he.sending t k r w call hst)
      rwa [channel, Nat.unpair_pair]
  noSend t j := by
    by_cases ht : t = me
    · subst ht
      exact hnoSend j
    · rw [hsame _ (by rwa [operation, Nat.unpair_pair])]
      exact he.noSend t j
  finished n := by
    by_cases hn : n.unpair.1 = me
    · by_cases hoperation : ∃ j, n = operation me j
      · obtain ⟨j, rfl⟩ := hoperation
        exact (hfinishedOperation j).imp_right fun h => .inl ⟨me, j, rfl, h.1, h.2⟩
      · refine (hfinished n hn fun j hj => hoperation ⟨j, hj⟩).imp_right ?_
        rintro ⟨k, r, w, call, hk, hst⟩
        exact .inr ⟨me, k, r, w, call, hk, hst⟩
    · rw [hsame n hn]
      refine (he.finished n).imp_right (Or.imp ?_ ?_)
      · rintro ⟨t, j, rfl, hj, hcall⟩
        rw [operation, Nat.unpair_pair] at hn
        exact ⟨t, j, rfl, (hbegun t hn).trans hj, by rw [hother t hn]; exact hcall⟩
      · rintro ⟨t, k, r, w, call, rfl, hst⟩
        rw [channel, Nat.unpair_pair] at hn
        exact ⟨t, k, r, w, call, rfl, by rw [hother t hn]; exact hst⟩

/-- The calls of the map after task `me` has used it: what `me` is in now is `after`. -/
structure Moved (ok : Pool.Guard Host MapCall Choice) (c : Config Host ServerTask) (me : Nat)
    (h' : Host) (after : Option MapCall) (begun begun' : Nat → Nat) (d d₀' d' : Config Host MapCall) :
    Prop where
  boot : MapBoot d₀'
  run : mapCalls.Reach (fun d n i => Begun c begun' n ∧ ok d n i) d₀' d'
  shared : d'.shared = h'.mapPart
  more : ∀ t, begun t ≤ begun' t
  others : ∀ t, t ≠ me → begun' t = begun t
  same : ∀ n, (∀ j, n ≠ operation me j) → d'.task n = d.task n
  inCall : ∀ call, after = some call → ∃ j, begun' me = j + 1 ∧ d'.task (operation me j) = call
  noSend : ∀ j, (d'.task (operation me j)).sending = none
  finished : ∀ j, (d'.task (operation me j)).finished = true ∨
    (begun' me = j + 1 ∧ after = some (d'.task (operation me j)))

theorem MapEmbedded.finished_operation (he : MapEmbedded c begun d) (j : Nat) :
    (d.task (operation me j)).finished = true ∨
      (begun me = j + 1 ∧ (c.task me).stage.inCall = some (d.task (operation me j))) := by
  refine (he.finished (operation me j)).imp_right ?_
  rintro (⟨t, j', hj', hbegun, hcall⟩ | ⟨t, k, r, w, call, hk, -⟩)
  · obtain ⟨rfl, rfl⟩ := operation_injective hj'
    exact ⟨hbegun, hcall⟩
  · exact absurd hk (operation_ne_channel me t j k)

/-- A section of the call that task `me` is in, or that it begins now. -/
theorem UsesMap.fireOperation (guard : OnSends ok) {h' : Host} {d₁ : Config Host MapCall}
    {call call' : MapCall} {j : Nat} {i : Choice} {after : Option MapCall} (boot : MapBoot d₀')
    (run : mapCalls.Reach (fun d n i => Begun c begun' n ∧ ok d n i) d₀' d₁)
    (hsame : ∀ n, (∀ j, n ≠ operation me j) → d₁.task n = d.task n)
    (hj : begun' me = j + 1) (htask : d₁.task (operation me j) = call) (noSend : call.sending = none)
    (step : call.step (operation me j) d₁.shared i = some (h'.mapPart, call'))
    (next : after = some call' ∨ (after = none ∧ call'.finished = true))
    (more : ∀ t, begun t ≤ begun' t) (others : ∀ t, t ≠ me → begun' t = begun t)
    (hothers : ∀ j', j' ≠ j → (d₁.task (operation me j')).sending = none ∧
      (d₁.task (operation me j')).finished = true) :
    ∃ d', Moved ok c me h' after begun begun' d d₀' d' := by
  have hfire : mapCalls.fire d₁ (operation me j) i =
      some (⟨h'.mapPart, Function.update d₁.task (operation me j) call'⟩ : Config Host MapCall) := by
    refine Pool.fire_eq_some.mpr ⟨h'.mapPart, call', ?_, rfl⟩
    rw [htask]
    exact step
  have hok : ok d₁ (operation me j) i := guard.others d₁ _ i (by rw [htask]; exact noSend)
  have hbegun : Begun c begun' (operation me j) :=
    .inl ⟨me, j, rfl, by rw [hj]; exact Nat.lt_succ_self j⟩
  have hself : Function.update d₁.task (operation me j) call' (operation me j) = call' :=
    Function.update_self ..
  have hne : ∀ {j'}, j' ≠ j → Function.update d₁.task (operation me j) call' (operation me j') =
      d₁.task (operation me j') :=
    fun hne => Function.update_of_ne (fun he => hne (operation_injective he).2) ..
  refine ⟨_, boot, .tail run ⟨hbegun, hok⟩ hfire, rfl, more, others, fun n hn => ?_, fun x hx => ?_,
    fun j' => ?_, fun j' => ?_⟩
  · exact (Function.update_of_ne (hn j) ..).trans (hsame n hn)
  · rcases next with hnext | ⟨hnext, -⟩
    · cases hnext.symm.trans hx
      exact ⟨j, hj, hself⟩
    · cases hnext.symm.trans hx
  · by_cases heq : j' = j
    · subst heq
      exact (congrArg MapCall.sending hself).trans (MapCall.step_noSend noSend step)
    · exact (congrArg MapCall.sending (hne heq)).trans (hothers j' heq).1
  · by_cases heq : j' = j
    · subst heq
      rcases next with hnext | ⟨-, hlast⟩
      · exact .inr ⟨hj, hnext.trans (congrArg some hself.symm)⟩
      · exact .inl ((congrArg MapCall.finished hself).trans hlast)
    · exact .inl ((congrArg MapCall.finished (hne heq)).trans (hothers j' heq).2)

/-- The calls of the map follow a section that uses it. -/
theorem UsesMap.use (guard : OnSends ok) (sim : UsesMap ok c begun d₀ d) {h' : Host}
    {after : Option MapCall} (use : MapUse c.shared h' (c.task me).stage.inCall after) :
    ∃ begun' d₀' d', Moved ok c me h' after begun begun' d d₀' d' := by
  have he := sim.embedded
  cases use with
  | spares same keeps =>
    refine ⟨begun, d₀, d, sim.boot, sim.run, he.shared.trans same.symm, fun _ => Nat.le_refl _,
      fun _ _ => rfl, fun _ _ => rfl, fun call hcall => ?_, he.noSend me, fun j => ?_⟩
    · exact he.inCall me call (keeps ▸ hcall)
    · rw [keeps]
      exact he.finished_operation j
  | calls call call' i noSend origin step next =>
    rcases origin with hcall | ⟨hcall, hfresh⟩
    · -- the call is under way
      obtain ⟨j, hj, htask⟩ := he.inCall me call hcall
      have hstep := step (operation me j)
      rw [← he.shared] at hstep
      have hothers : ∀ j', j' ≠ j → (d.task (operation me j')).sending = none ∧
          (d.task (operation me j')).finished = true := by
        refine fun j' hne => ⟨he.noSend me j', (he.finished_operation j').resolve_right fun h => ?_⟩
        exact hne (Nat.succ.inj (h.1.symm.trans hj))
      obtain ⟨d', moved⟩ := fireOperation guard sim.boot sim.run (fun _ _ => rfl) hj htask noSend
        hstep next (fun _ => Nat.le_refl _) (fun _ _ => rfl) hothers
      exact ⟨begun, d₀, d', moved⟩
    · -- the call begins
      have hunused : ¬ Begun c begun (operation me (begun me)) := by
        rintro (⟨t, j, hj, hlt⟩ | ⟨t, k, hk, -⟩)
        · obtain ⟨rfl, rfl⟩ := operation_injective hj
          exact Nat.lt_irrefl _ hlt
        · exact operation_ne_channel _ _ _ _ hk
      have hmore : ∀ t, begun t ≤ Function.update begun me (begun me + 1) t := by
        intro t
        by_cases ht : t = me
        · subst ht
          rw [Function.update_self]
          exact Nat.le_succ _
        · rw [Function.update_of_ne ht]
      have hrun : mapCalls.Reach
          (fun d n i => Begun c (Function.update begun me (begun me + 1)) n ∧ ok d n i)
          (d₀.setTask (operation me (begun me)) call) (d.setTask (operation me (begun me)) call) :=
        (sim.run.setTask_guarded hunused call fun d n i hne => guard.alone d n i _ call hne).mono
          fun d n i hn => ⟨hn.1.mono (fun _ => id) hmore, hn.2⟩
      have hothers : ∀ j, j ≠ begun me →
          ((d.setTask (operation me (begun me)) call).task (operation me j)).sending = none ∧
          ((d.setTask (operation me (begun me)) call).task (operation me j)).finished = true := by
        intro j hne
        rw [Config.setTask_of_ne fun heq => hne (operation_injective heq).2]
        refine ⟨he.noSend me j, (he.finished_operation j).resolve_right fun h => ?_⟩
        cases hcall.symm.trans h.2
      have hstep := step (operation me (begun me))
      rw [← he.shared] at hstep
      obtain ⟨d', moved⟩ := fireOperation guard (sim.boot.setTask _ hfresh) hrun
        (fun n hn => Config.setTask_of_ne (hn (begun me))) (Function.update_self ..)
        (Config.setTask_self ..) noSend hstep next hmore
        (fun t ht => Function.update_of_ne ht ..) hothers
      exact ⟨_, _, d', moved⟩

theorem Moved.same_of_ne {h' : Host} {after : Option MapCall}
    (moved : Moved ok c me h' after begun begun' d d₀' d') {n : Nat} (hn : n.unpair.1 ≠ me) :
    d'.task n = d.task n := by
  refine moved.same n fun j hj => hn ?_
  rw [hj, operation, Nat.unpair_pair]

/-- The calls that are no operations of `me` have not moved. -/
theorem Moved.finished_of_ne {h' : Host} {after : Option MapCall} (he : MapEmbedded c begun d)
    (moved : Moved ok c me h' after begun begun' d d₀' d') {n : Nat} (hme : n.unpair.1 = me)
    (hn : ∀ j, n ≠ operation me j) : (d'.task n).finished = true ∨
      ∃ k r w call, n = channel me k ∧ (c.task me).stage = .calling k r w call := by
  rw [moved.same n hn]
  refine (he.finished n).imp_right ?_
  rintro (⟨t, j, rfl, -⟩ | ⟨t, k, r, w, call, rfl, hst⟩)
  · rw [operation, Nat.unpair_pair] at hme
    subst hme
    exact absurd rfl (hn j)
  · rw [channel, Nat.unpair_pair] at hme
    subst hme
    exact ⟨k, r, w, call, rfl, hst⟩

theorem Moved.sends {h' : Host} {after : Option MapCall}
    (moved : Moved ok c me h' after begun begun' d d₀' d') : SendsFrom d d' none := by
  intro n call hn
  by_cases hoperation : ∃ j, n = operation me j
  · obtain ⟨j, rfl⟩ := hoperation
    have hno := moved.noSend j
    rw [hn] at hno
    cases hno
  · rw [moved.same n fun j hj => hoperation ⟨j, hj⟩] at hn
    exact .inl ⟨call, hn, rfl⟩

/-- The calls of the map follow a section that is in no `send_and_wait_for` call. -/
theorem UsesMap.step_uses (guard : OnSends ok) (sim : UsesMap ok c begun d₀ d)
    (hother : ∀ t, t ≠ me → c'.task t = c.task t) (hused : ∀ n, usedBy c n → usedBy c' n)
    (use : MapUse c.shared c'.shared (c.task me).stage.inCall (c'.task me).stage.inCall)
    (before : (c.task me).stage.sending = none) (after : (c'.task me).stage.sending = none) :
    ∃ begun' d₀' d', UsesMap ok c' begun' d₀' d' ∧ SendsFrom d d' none := by
  obtain ⟨begun', d₀', d', moved⟩ := sim.use guard use
  have hmono : mapCalls.Reach (fun d n i => Begun c' begun' n ∧ ok d n i) d₀' d' :=
    moved.run.mono fun _ _ _ hn => ⟨hn.1.mono hused fun _ => Nat.le_refl _, hn.2⟩
  refine ⟨begun', d₀', d', ⟨moved.boot, hmono, ?_⟩, moved.sends⟩
  refine sim.embedded.update hother moved.shared moved.others (fun n hn => moved.same_of_ne hn)
    moved.inCall ?_ moved.noSend moved.finished ?_
  · intro k r w call hst
    rw [hst] at after
    cases after
  · intro n hme hn
    refine (moved.finished_of_ne sim.embedded hme hn).imp_right ?_
    rintro ⟨k, r, w, call, -, hst⟩
    rw [hst] at before
    cases before

/-- A new call of the map, when a tool draws its corr. -/
theorem UsesMap.step_draws (guard : OnSends ok) (sim : UsesMap ok c begun d₀ d)
    (hother : ∀ t, t ≠ me → c'.task t = c.task t) (hused : ∀ n, usedBy c n → usedBy c' n) {k : Nat}
    {r : ToolRequest} {pc : RequestPc} {w : Waiting} {call : SendCall}
    (use : MapUse c.shared c'.shared none none) (before : (c.task me).stage = .request k r pc)
    (unsent : pc.queueing.isSome = true) (next : (c'.task me).stage = .calling k r w call)
    (fresh : (MapCall.send call).Fresh) :
    ∃ begun' d₀' d', UsesMap ok c' begun' d₀' d' ∧
      SendsFrom d d' (some (channel me k, call.msg.corr)) := by
  have huse : MapUse c.shared c'.shared (c.task me).stage.inCall none := by
    rw [before]
    exact use
  obtain ⟨begun', d₀', d', moved⟩ := sim.use guard huse
  have hunused : ¬ Begun c begun' (channel me k) := by
    rintro (⟨t, j, hj, -⟩ | ⟨t, k', -, hk⟩)
    · exact operation_ne_channel t me j k hj.symm
    · exact not_usedBy_channel before unsent hk
  have hmono : mapCalls.Reach (fun d n i => Begun c' begun' n ∧ ok d n i)
      (d₀'.setTask (channel me k) (.send call)) (d'.setTask (channel me k) (.send call)) :=
    (moved.run.setTask_guarded hunused (.send call) fun d n i hne =>
      guard.alone d n i _ _ hne).mono fun _ _ _ hn => ⟨hn.1.mono hused fun _ => Nat.le_refl _, hn.2⟩
  have hoperation : ∀ j, (d'.setTask (channel me k) (.send call)).task (operation me j) =
      d'.task (operation me j) := fun j => Config.setTask_of_ne (operation_ne_channel me me j k)
  refine ⟨begun', _, _, ⟨moved.boot.setTask _ fresh, hmono, ?_⟩, fun n call' hn => ?_⟩
  · refine sim.embedded.update hother moved.shared moved.others (fun n hn => ?_) (fun x hx => ?_)
      (fun k' r' w' call' hst => ?_) (fun j => ?_) (fun j => ?_) fun n hme hn => ?_
    · refine (Config.setTask_of_ne ?_).trans (moved.same_of_ne hn)
      rintro rfl
      rw [channel, Nat.unpair_pair] at hn
      exact hn rfl
    · rw [next] at hx
      cases hx
    · cases next.symm.trans hst
      exact Config.setTask_self ..
    · rw [hoperation]
      exact moved.noSend j
    · rw [hoperation]
      exact .inl ((moved.finished j).resolve_right fun h => by cases h.2)
    · by_cases hk : n = channel me k
      · exact .inr ⟨k, r, w, call, hk, next⟩
      · rw [Config.setTask_of_ne hk]
        refine .inl ((moved.finished_of_ne sim.embedded hme hn).resolve_right ?_)
        rintro ⟨k', r', w', call', -, hst⟩
        cases before.symm.trans hst
        cases unsent
  · by_cases hk : n = channel me k
    · subst hk
      rw [Config.setTask_self] at hn
      cases hn
      exact .inr rfl
    · rw [Config.setTask_of_ne hk] at hn
      exact .inl ((moved.sends n call' hn).resolve_right fun h => by cases h)

/-- The call of the map follows that of the tool. -/
theorem UsesMap.step_sends (sim : UsesMap ok c begun d₀ d)
    (hother : ∀ t, t ≠ me → c'.task t = c.task t) (hused : ∀ n, usedBy c n → usedBy c' n) {k : Nat}
    {r : ToolRequest} {w : Waiting} {call call' : SendCall}
    (before : (c.task me).stage = .calling k r w call) (hok : ok d (channel me k) i)
    (step : call.step (channel me k) c.shared i = some (c'.shared, call'))
    (quiet : (c'.task me).stage.inCall = none)
    (next : (c'.task me).stage = .calling k r w call' ∨
      ((c'.task me).stage.sending = none ∧ call'.pc.ended = true)) :
    ∃ d', UsesMap ok c' begun d₀ d' ∧ SendsFrom d d' none := by
  have he := sim.embedded
  have htask := he.sending me k r w call before
  have hfire : mapCalls.fire d (channel me k) i =
      some (⟨c'.shared.mapPart, Function.update d.task (channel me k) (.send call')⟩ :
        Config Host MapCall) := by
    refine Pool.fire_eq_some.mpr ⟨c'.shared.mapPart, _, ?_, rfl⟩
    rw [htask, he.shared]
    exact congrArg (Option.map _) (SendCall.step_mapPart step)
  have hbegun : Begun c begun (channel me k) := .inr ⟨me, k, rfl, usedBy_channel before⟩
  have hrun := sim.run.tail ⟨hbegun, hok⟩ hfire
  have hself : Function.update d.task (channel me k) (.send call') (channel me k) = .send call' :=
    Function.update_self ..
  have hne : ∀ {n}, n ≠ channel me k →
      Function.update d.task (channel me k) (.send call') n = d.task n :=
    fun hn => Function.update_of_ne hn ..
  refine ⟨_, ⟨sim.boot, hrun.mono fun _ _ _ hn => ⟨hn.1.mono hused fun _ => Nat.le_refl _, hn.2⟩, ?_⟩,
    fun n x hn => ?_⟩
  · refine he.update hother rfl (fun _ _ => rfl) (fun n hn => hne ?_) (fun x hx => ?_)
      (fun k' r' w' x hst => ?_) (fun j => ?_) (fun j => ?_) fun n hme hn => ?_
    · rintro rfl
      rw [channel, Nat.unpair_pair] at hn
      exact hn rfl
    · rw [quiet] at hx
      cases hx
    · rcases next with hnext | ⟨hnext, -⟩
      · cases hnext.symm.trans hst
        exact hself
      · rw [hst] at hnext
        cases hnext
    · exact (congrArg MapCall.sending (hne (operation_ne_channel me me j k))).trans (he.noSend me j)
    · refine .inl ((congrArg MapCall.finished (hne (operation_ne_channel me me j k))).trans ?_)
      refine (he.finished_operation j).resolve_right fun h => ?_
      have hin := h.2
      rw [before] at hin
      cases hin
    · by_cases hk : n = channel me k
      · subst hk
        rcases next with hnext | ⟨-, hended⟩
        · exact .inr ⟨k, r, w, call', rfl, hnext⟩
        · exact .inl ((congrArg MapCall.finished hself).trans hended)
      · refine .inl ((congrArg MapCall.finished (hne hk)).trans ((he.finished n).resolve_right ?_))
        rintro (⟨t, j, rfl, -⟩ | ⟨t, k', r', w', x, rfl, hst⟩)
        · rw [operation, Nat.unpair_pair] at hme
          subst hme
          exact hn j rfl
        · rw [channel, Nat.unpair_pair] at hme
          subst hme
          cases before.symm.trans hst
          exact hk rfl
  · by_cases hk : n = channel me k
    · subst hk
      cases hself.symm.trans hn
      exact .inl ⟨call, htask, (SendCall.step_args step).2.1⟩
    · exact .inl ⟨x, (hne hk).symm.trans hn, rfl⟩

/-- **Simulation.** The calls of the map follow every step of the server. -/
theorem UsesMap.step (guard : OnSends ok) (sim : UsesMap ok c begun d₀ d)
    (hf : server.fire c me i = some c')
    (hok : ∀ k r w call, (c.task me).stage = .calling k r w call → ok d (channel me k) i) :
    ∃ begun' d₀' d' new, UsesMap ok c' begun' d₀' d' ∧ SendsFrom d d' new ∧
      ∀ n corr, new = some (n, corr) → corr = c.shared.instances.nextCorr ∧
        c'.shared.instances.nextCorr = c.shared.instances.nextCorr + 1 := by
  obtain ⟨hs, hother⟩ := fire_stage hf
  have hused : ∀ n, usedBy c n → usedBy c' n := fun _ => usedBy_step hf
  cases hs.mapMove with
  | uses use before after =>
    obtain ⟨begun', d₀', d', sim', sends⟩ := sim.step_uses guard hother hused use before after
    exact ⟨begun', d₀', d', none, sim', sends, fun _ _ h => by cases h⟩
  | draws use before unsent next fresh corr counter =>
    obtain ⟨begun', d₀', d', sim', sends⟩ :=
      sim.step_draws guard hother hused use before unsent next fresh
    exact ⟨begun', d₀', d', _, sim', sends, fun n corr' h => by cases h; exact ⟨corr, counter⟩⟩
  | sends before step quiet next =>
    obtain ⟨d', sim', sends⟩ :=
      sim.step_sends hother hused before (hok _ _ _ _ before) step quiet next
    exact ⟨begun, d₀, d', none, sim', sends, fun _ _ h => by cases h⟩

end Step

/-! ## Runs -/

/-- A task that has not stepped is in no call of the map. -/
theorem ServerTask.Fresh.noCall {t : ServerTask} (h : t.Fresh) :
    t.stage.inCall = none ∧ t.stage.sending = none := by
  rcases h.stage with ⟨u, hu, hfresh⟩ | hb | ho | ⟨r, id, hr⟩
  · rw [hu]
    cases u with
    | session s =>
      rw [show s = { dialler := s.dialler } from hfresh]
      exact ⟨rfl, rfl⟩
    | _ => exact ⟨rfl, rfl⟩
  · rw [hb]
    exact ⟨rfl, rfl⟩
  · rw [ho]
    exact ⟨rfl, rfl⟩
  · rw [hr]
    exact ⟨rfl, (Stage.idle_start 0 r id).sending⟩

theorem UsesMap.of_boot {ok : Pool.Guard Host MapCall Choice} {c : Config Host ServerTask}
    (boot : ServerBoot c) : UsesMap ok c (fun _ => 0) ⟨c.shared.mapPart, fun _ => .environment⟩
      ⟨c.shared.mapPart, fun _ => .environment⟩ where
  boot := by
    obtain ⟨default, config, now, hshared⟩ := boot.shared
    refine ⟨⟨default, {}, now, ?_⟩, fun _ => trivial⟩
    rw [hshared]
    rfl
  run := .refl
  embedded := by
    refine ⟨rfl, fun t call hcall => ?_, fun t k r w call hst => ?_, fun _ _ => rfl,
      fun _ => .inl rfl⟩
    · rw [(boot.fresh t).noCall.1] at hcall
      cases hcall
    · have hno := (boot.fresh t).noCall.2
      rw [hst] at hno
      cases hno

theorem UsesMap.of_reach {c₀ c : Config Host ServerTask} (boot : ServerBoot c₀)
    (run : server.Reach Pool.anyStep c₀ c) : ∃ begun d₀ d, UsesMap Pool.anyStep c begun d₀ d := by
  induction run with
  | refl => exact ⟨_, _, _, .of_boot boot⟩
  | tail _ _ fire ih =>
    obtain ⟨begun, d₀, d, sim⟩ := ih
    obtain ⟨begun', d₀', d', -, sim', -⟩ :=
      sim.step ⟨fun _ _ _ _ => trivial, fun _ _ _ _ _ _ _ => trivial⟩ fire fun _ _ _ _ _ => trivial
    exact ⟨begun', d₀', d', sim'⟩

/-- Where a run of the server is, a run of the calls of the map is. -/
theorem server_uses_map {c₀ c : Config Host ServerTask} (boot : ServerBoot c₀)
    (run : server.Reach Pool.anyStep c₀ c) :
    ∃ begun d₀ d, MapBoot d₀ ∧ mapCalls.Reach Pool.anyStep d₀ d ∧ MapEmbedded c begun d := by
  obtain ⟨begun, d₀, d, sim⟩ := UsesMap.of_reach boot run
  exact ⟨begun, d₀, d, sim.boot, sim.run.mono fun _ _ _ _ => trivial, sim.embedded⟩

/-- The stream answers the first request, and has taken the waiter from the first table. -/
def takeWaiter : List (Nat × Choice) := answerTwice.take 13

theorem server_uses_map_twoKeys :
    ∃ c, server.Reach Pool.anyStep twoKeys c ∧
      (c.task 0).stage.inCall =
        some (.push "a" { corr := 1, payload := some (.uiResult {}) } (some (.forget (channel 1 0)))) ∧
      ∃ begun d₀ d, MapBoot d₀ ∧ mapCalls.Reach Pool.anyStep d₀ d ∧ MapEmbedded c begun d := by
  obtain ⟨c, run, hcall⟩ := server.exists_reach Pool.anyStep twoKeys takeWaiter
    (fun c => (c.task 0).stage.inCall =
      some (.push "a" { corr := 1, payload := some (.uiResult {}) } (some (.forget (channel 1 0)))))
    (by decide +kernel)
  exact ⟨c, run, hcall, server_uses_map serverBoot_twoKeys run⟩

end CsmProxy
