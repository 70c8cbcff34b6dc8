import CsmProxy.Waiters.SlotHistory
import CsmProxy.Waiters.SlotRefinement

/-!
# Which reply a call returns

Without removals a call that returns a reply returns the first envelope that matches it, in
the order in which the pushes look for waiters, and an envelope that is sent before the
timeout fires is returned (`firstMatched_of_reach`).

The first match takes the waiter wherever the call is, and before its envelope is sent. So a
call whose request is refused does not return a match that came before, and a push that
stalls between taking the waiter and sending its envelope makes the call miss later matches
and time out (`not_completesWithFirst_refused_and_not_neverMissed_stalled`).
-/

namespace CsmProxy

open Foundations

/-- The calls of the map with the history of its waiters. -/
def waiterHistory : Pool (Host × List WaiterEvent) MapCall Choice := mapCalls.recording noteWaiter

/-- No call removes a session. -/
def NoRemovals (c : Config Host MapCall) : Prop :=
  ∀ t id token pc, c.task t ≠ .removeIf id token pc

/-- What the calls return, and what they wait for. -/
structure FirstMatched (c : Config (Host × List WaiterEvent) MapCall) : Prop where
  /-- A reply is the first match since the registration. -/
  returned : ∀ k call reply, c.task k = .send call → call.pc = .returned (.ok reply) →
    ∃ p, firstMatch k call.answers c.shared.2 = some (p, reply)
  /-- Envelopes that do not match leave the waiter pending. -/
  pending : ∀ k call, c.task k = .send call → call.pc.waits = true →
    firstMatch k call.answers c.shared.2 = none →
    c.shared.1.instances.waiters.lookup call.msg.corr = some (call.kind, k) ∧
      c.shared.1.oneshot k = .waiting
  /-- The first match is with its push, or in the channel of the call. -/
  taken : ∀ k call p reply, c.task k = .send call → call.pc.waits = true →
    firstMatch k call.answers c.shared.2 = some (p, reply) →
    (∃ id, c.task p = .push id reply (some (.forget k)) ∨
      c.task p = .push id reply (some (.reply k))) ∨ ∃ via, c.shared.1.oneshot k = .sent via reply
  /-- A push completes one waiter at most. -/
  single : ∀ p k k', .handed p k ∈ c.shared.2 → .handed p k' ∈ c.shared.2 → k' = k
  /-- An envelope that is sent before the timeout fires is the first match, and returned. -/
  prompt : ∀ k call p before, c.task k = .send call → .queued k ∈ c.shared.2 →
    .handed p k :: before <:+ c.shared.2 → .timedOut k ∉ before →
    ∃ reply, firstMatch k call.answers c.shared.2 = some (p, reply) ∧
      (call.pc = .returned (.ok reply) ∨
        ∃ deadline via, call.pc = .await deadline ∧ c.shared.1.oneshot k = .sent via reply)
  /-- A call without a reply has timed out, or its request was refused. -/
  failed : ∀ k call err, c.task k = .send call → call.pc = .returned (.error err) →
    (err = .timeout ∧ .timedOut k ∈ c.shared.2) ∨
      (err ≠ .timeout ∧ err ≠ .disconnected ∧ .queued k ∉ c.shared.2)

/-! ## The invariant -/

theorem SendCall.answers_congr {call call' : SendCall} (hmsg : call'.msg = call.msg)
    (hkind : call'.kind = call.kind) : call'.answers = call.answers := by
  funext msg
  rw [answers, hmsg, hkind, answers]

theorem noteWaiter_pushed {me p : Nat} {h : Host} {c : MapCall} {i : Choice} {msg : SimToServer}
    (hn : noteWaiter me h c i = some (.pushed p msg)) : p = me ∧ ∃ id pc, c = .push id msg pc := by
  unfold noteWaiter at hn
  split at hn
  · split at hn
    · cases hn
    · split at hn <;> cases hn
    · split at hn <;> cases hn
    · cases hn
  · cases hn
    exact ⟨rfl, _, _, rfl⟩
  · cases hn
  · cases hn

theorem noteWaiter_handed {me p k : Nat} {h : Host} {c : MapCall} {i : Choice}
    (hn : noteWaiter me h c i = some (.handed p k)) :
    p = me ∧ ∃ id msg, c = .push id msg (some (.reply k)) := by
  unfold noteWaiter at hn
  split at hn
  · split at hn
    · cases hn
    · split at hn <;> cases hn
    · split at hn <;> cases hn
    · cases hn
  · cases hn
  · cases hn
    exact ⟨rfl, _, _, rfl⟩
  · cases hn

/-- A removal was one before the step. -/
theorem MapCall.step_removal {me : Nat} {h h' : Host} {c c' : MapCall} {i : Choice}
    (hs : c.step me h i = some (h', c')) {id : String} {token : Nat} {pc' : Option RemovePc}
    (hc' : c' = .removeIf id token pc') : ∃ pc, c = .removeIf id token pc := by
  subst hc'
  cases c with
  | send call =>
    obtain ⟨call', he, -⟩ := step_send hs
    cases he
  | push id' msg pc =>
    obtain ⟨pc₀, -, -, -, he⟩ := step_push hs
    cases he
  | removeIf id' token' pc =>
    cases pc with
    | none => cases hs
    | some pc =>
      obtain ⟨⟨g, out⟩, -, he⟩ := Option.map_eq_some_iff.mp hs
      cases he
      exact ⟨some pc, rfl⟩
  | update u returned => cases returned <;> cases i <;> cases hs
  | environment =>
    obtain ⟨g, -, he⟩ := Option.map_eq_some_iff.mp hs
    cases he
  | _ => cases i <;> cases hs

/-- What holds of the waiters and their history while there are no removals. -/
structure MatchInv (c : Config (Host × List WaiterEvent) MapCall) : Prop where
  sound : Sound c.erase
  noRemovals : NoRemovals c.erase
  pushed : ∀ p msg, .pushed p msg ∈ c.shared.2 → ∃ id pc, c.task p = .push id msg pc
  matched : ∀ k call, c.task k = .send call →
    Slot.Matched k call.answers c.shared.2 (slotOf c.erase k call)
  ends : ∀ k call, c.task k = .send call → Slot.Ends k c.shared.2 (slotOf c.erase k call)
  receiver : ∀ p k, .handed p k ∈ c.shared.2 → ∃ call, c.task k = .send call

namespace MatchInv

variable {c c' : Config (Host × List WaiterEvent) MapCall} {me : Nat} {i : Choice}

theorem of_boot {c : Config Host MapCall} (boot : MapBoot c) (distinct : DistinctCorrs c)
    (noRemovals : NoRemovals c) : MatchInv (c.withLog []) := by
  refine ⟨.of_boot boot distinct, noRemovals, nofun, ?_, ?_, nofun⟩
  · intro k call hk
    rw [Config.erase_withLog, slotOf_boot boot hk]
    exact .of_initial
  · intro k call hk
    rw [Config.erase_withLog, slotOf_boot boot hk]
    exact .of_initial

theorem step (inv : MatchInv c) (hf : waiterHistory.fire c me i = some c') : MatchInv c' := by
  obtain ⟨hfire, hlog⟩ := Pool.fire_recording hf
  obtain ⟨hs, hother⟩ := fire_call hfire
  have htaking : ∀ k call r, (slotOf c.erase k call).taking r = false := by
    intro k call r
    change (c.erase.task r).takes call.msg.corr = false
    cases hr : c.erase.task r with
    | removeIf id token pc => exact absurd hr (inv.noRemovals r id token pc)
    | _ => rfl
  refine ⟨inv.sound.step hfire, ?_, ?_, ?_, ?_, ?_⟩
  · intro t id token pc ht
    by_cases htm : t = me
    · subst htm
      obtain ⟨pc₀, hold⟩ := MapCall.step_removal hs ht
      exact inv.noRemovals t id token pc₀ hold
    · exact inv.noRemovals t id token pc ((hother t htm).symm.trans ht)
  · intro p msg hmem
    have hold : ∃ id pc, c.task p = .push id msg pc := by
      rw [hlog] at hmem
      rcases List.mem_append.mp hmem with hnew | hold
      · obtain ⟨rfl, id, pc, hpush⟩ := noteWaiter_pushed (Option.mem_toList.mp hnew)
        exact ⟨id, pc, hpush⟩
      · exact inv.pushed p msg hold
    obtain ⟨id, pc, hp⟩ := hold
    exact ⟨id, fire_push hfire hp⟩
  · intro k call' hk'
    obtain ⟨call, hk, -, hmsg, hkind, hstep⟩ := inv.sound.slot_before hfire hk'
    rw [hlog, SendCall.answers_congr hmsg hkind]
    exact (inv.matched k call hk).step (inv.sound.core k call hk) hstep (htaking k call)
  · intro k call' hk'
    obtain ⟨call, hk, -, -, -, hstep⟩ := inv.sound.slot_before hfire hk'
    rw [hlog]
    exact (inv.ends k call hk).step (inv.matched k call hk) hstep
  · intro p k hmem
    have hold : ∃ call, c.task k = .send call := by
      rw [hlog] at hmem
      rcases List.mem_append.mp hmem with hnew | hold
      · obtain ⟨-, id, msg, hpush⟩ := noteWaiter_handed (Option.mem_toList.mp hnew)
        obtain ⟨call, hk, -⟩ := inv.sound.linked.held me id msg _ k hpush rfl
        exact ⟨call, hk⟩
      · exact inv.receiver p k hold
    obtain ⟨call, hk⟩ := hold
    obtain ⟨call', hk', -⟩ := fire_send hfire hk
    exact ⟨call', hk'⟩

theorem of_reach {c₀ : Config Host MapCall} (boot : MapBoot c₀) (distinct : DistinctCorrs c₀)
    (noRemovals : NoRemovals c₀)
    (run : waiterHistory.Reach Pool.anyStep (c₀.withLog []) c) : MatchInv c :=
  run.invariant (of_boot boot distinct noRemovals) fun _ _ _ _ inv _ hf => inv.step hf

/-- The push of the first match of two calls has one envelope, and so one corr. -/
theorem handed_unique (inv : MatchInv c) {p k k' : Nat} (hk : .handed p k ∈ c.shared.2)
    (hk' : .handed p k' ∈ c.shared.2) : k' = k := by
  obtain ⟨call, htask⟩ := inv.receiver p k hk
  obtain ⟨call', htask'⟩ := inv.receiver p k' hk'
  obtain ⟨-, reply, -, hfirst⟩ := (inv.matched k call htask).handed p hk
  obtain ⟨-, reply', -, hfirst'⟩ := (inv.matched k' call' htask').handed p hk'
  obtain ⟨hmem, hans⟩ := pushed_of_firstMatch hfirst
  obtain ⟨hmem', hans'⟩ := pushed_of_firstMatch hfirst'
  obtain ⟨id, pc, hp⟩ := inv.pushed p reply hmem
  obtain ⟨id', pc', hp'⟩ := inv.pushed p reply' hmem'
  rw [hp] at hp'
  cases hp'
  have hcorr := (SendCall.answers_iff.mp hans).2.1
  have hcorr' := (SendCall.answers_iff.mp hans').2.1
  exact inv.sound.linked.distinct k' k call' call htask' htask (hcorr'.symm.trans hcorr)

/-- What a push does with the sender of a call, read off its task. -/
theorem push_of_grip {l : MapCall} {k : Nat} {reply : SimToServer}
    (h : l.grip k = .taken reply ∨ l.grip k = .forgotten reply) :
    ∃ id, l = .push id reply (some (.forget k)) ∨ l = .push id reply (some (.reply k)) := by
  unfold MapCall.grip at h
  split at h
  · rename_i id msg tx
    split at h
    · rename_i heq
      subst heq
      rcases h with h | h <;> cases h
      exact ⟨id, .inl rfl⟩
    · rcases h with h | h <;> cases h
  · rename_i id msg tx
    split at h
    · rename_i heq
      subst heq
      rcases h with h | h <;> cases h
      exact ⟨id, .inr rfl⟩
    · rcases h with h | h <;> cases h
  · rcases h with h | h <;> cases h

end MatchInv

/-! ## The result -/

/-- **First match.** In every run of calls with distinct corrs and without removals, a call
that returns a reply returns its first match, and a match that is sent in time is
returned. -/
theorem firstMatched_of_reach {c₀ : Config Host MapCall}
    {c : Config (Host × List WaiterEvent) MapCall} (boot : MapBoot c₀)
    (distinct : DistinctCorrs c₀) (noRemovals : NoRemovals c₀)
    (run : waiterHistory.Reach Pool.anyStep (c₀.withLog []) c) : FirstMatched c := by
  have inv := MatchInv.of_reach boot distinct noRemovals run
  refine ⟨?_, ?_, ?_, ?_, ?_, ?_⟩
  · intro k call reply hk hpc
    exact (inv.matched k call hk).replied reply hpc
  · intro k call hk hpc hnone
    obtain ⟨hw, ho⟩ := ((inv.matched k call hk).waiting (inv.sound.core k call hk) hpc).1 hnone
    obtain ⟨⟨kind, tx⟩, hl⟩ := Option.isSome_iff_exists.mp hw
    obtain ⟨rfl, rfl⟩ := inv.sound.linked.owner hk hl
    exact ⟨hl, ho⟩
  · intro k call p reply hk hpc hfirst
    have hwaiting := (inv.matched k call hk).waiting (inv.sound.core k call hk) hpc
    rcases hwaiting.2 p reply hfirst with hgrip | hgrip | hsent
    · exact .inl (MatchInv.push_of_grip (.inl hgrip))
    · exact .inl (MatchInv.push_of_grip (.inr hgrip))
    · exact .inr hsent
  · intro p k k' hk hk'
    exact inv.handed_unique hk hk'
  · intro k call p before hk hqueued hhanded hlate
    exact (inv.ends k call hk).prompt (inv.matched k call hk) hqueued hhanded hlate
  · intro k call err hk hpc
    have ends := inv.ends k call hk
    have herror : (slotOf c.erase k call).pc.error = some err := congrArg SendPc.error hpc
    by_cases htimeout : err = .timeout
    · exact .inl ⟨htimeout, ends.expired (by rw [herror, htimeout])⟩
    · refine .inr ⟨htimeout, ?_, ?_⟩
      · rintro rfl
        exact ends.connected herror
      · intro hmem
        rcases ends.queued hmem with ⟨deadline, h⟩ | ⟨reply, h⟩ | h
        · exact absurd (hpc.symm.trans h) (by simp)
        · exact absurd (hpc.symm.trans h) (by simp)
        · rw [herror] at h
          exact htimeout (Option.some.inj h)

/-! ## Runs -/

/-- A call to `a` that waits for a result, and three envelopes with its corr: an accepted
ack, and twice a result. The outbound queue of `a` takes one message. -/
def waitForResult : Config Host MapCall :=
  newMapWith [.insert { instanceId := "a" } 128 1,
    .send { instanceId := "a", msg := { corr := 1 }, timeout := 1, kind := .uiResult },
    .push "a" { corr := 1, payload := some (.inputAck { accepted := true }) } (some .complete),
    .push "a" { corr := 1, payload := some (.uiResult {}) } (some .complete),
    .push "a" { corr := 1, payload := some (.uiResult {}) } (some .complete),
    .update (.trySend "a" {}) false]

theorem mapBoot_waitForResult : MapBoot waitForResult := mapBoot_newMapWith (by simp [MapCall.Fresh])

theorem distinctCorrs_waitForResult : DistinctCorrs waitForResult :=
  distinctCorrs_newMapWith (by decide)

theorem noRemovals_waitForResult : NoRemovals waitForResult := by
  intro t id token pc
  exact Config.forall_ofTasks (p := fun l => l ≠ MapCall.removeIf id token pc) (by simp) (by simp) t

theorem corr_waitForResult (k : Nat) (call : SendCall)
    (hk : waitForResult.task k = .send call) : call.msg.corr ≠ 0 := by
  have hcorr : (waitForResult.task k).corr ≠ some 0 :=
    Config.forall_ofTasks (p := fun l => MapCall.corr l ≠ some 0) (by decide) (by decide) k
  rw [hk] at hcorr
  exact fun h => hcorr (congrArg some h)

/-- The accepted ack is ignored, and the first result is returned. -/
theorem firstMatched_result :
    ∃ c, waiterHistory.Reach Pool.anyStep (waitForResult.withLog []) c ∧
      c.task 1 = .send ⟨"a", { corr := 1 }, 1, .uiResult,
        .returned (.ok { corr := 1, payload := some (.uiResult {}) }), some 1, some "a"⟩ ∧
      FirstMatched c := by
  obtain ⟨c, run, hcall⟩ := waiterHistory.exists_reach Pool.anyStep (waitForResult.withLog [])
    [(0, .run), (0, .run), (1, .run), (1, .run), (1, .run), (1, .run), (2, .run), (2, .run),
      (3, .run), (3, .run), (3, .run), (1, .run)]
    (fun c => c.task 1 = .send ⟨"a", { corr := 1 }, 1, .uiResult,
      .returned (.ok { corr := 1, payload := some (.uiResult {}) }), some 1, some "a"⟩)
    (by decide +kernel)
  exact ⟨c, run, hcall, firstMatched_of_reach mapBoot_waitForResult distinctCorrs_waitForResult
    noRemovals_waitForResult run⟩

/-- A call that returns before its timeout fires returns its first match. -/
def CompletesWithFirst (c : Config (Host × List WaiterEvent) MapCall) : Prop :=
  ∀ k call result p reply, c.task k = .send call → call.pc = .returned result →
    firstMatch k call.answers c.shared.2 = some (p, reply) → .timedOut k ∉ c.shared.2 →
    result = .ok reply

/-- A call that waits in `b`, when a matching push has returned that began after the request
was queued, does not time out. -/
def NeverMissed (b c : Config (Host × List WaiterEvent) MapCall) : Prop :=
  ∀ k call call' p id msg deadline before, b.task k = .send call → call.pc = .await deadline →
    b.task p = .push id msg none → .pushed p msg :: before <:+ b.shared.2 →
    .queued k ∈ before → call.answers msg = true → c.task k = .send call' →
    call'.pc ≠ .returned (.error .timeout)

/-- A result arrives before the request is refused, and the call returns `QueueFull`. A push
takes the waiter and stalls before it sends, a second one returns, and the call times
out. -/
theorem not_completesWithFirst_refused_not_neverMissed_stalled :
    (¬ ∀ c₀ c, MapBoot c₀ → DistinctCorrs c₀ → NoRemovals c₀ →
      (∀ k call, c₀.task k = .send call → call.msg.corr ≠ 0) →
      waiterHistory.Reach Pool.anyStep (c₀.withLog []) c → CompletesWithFirst c) ∧
    ¬ ∀ c₀ b c, MapBoot c₀ → DistinctCorrs c₀ → NoRemovals c₀ →
      (∀ k call, c₀.task k = .send call → call.msg.corr ≠ 0) →
      waiterHistory.Reach Pool.anyStep (c₀.withLog []) b →
      waiterHistory.Reach Pool.anyStep b c → NeverMissed b c := by
  constructor
  · intro hall
    obtain ⟨c, run, hcall, hfirst, htimeout⟩ := waiterHistory.exists_reach Pool.anyStep
      (waitForResult.withLog [])
      [(0, .run), (0, .run), (1, .run), (1, .run), (3, .run), (3, .run), (3, .run), (3, .run),
        (5, .run), (1, .run), (1, .run), (1, .run), (1, .run)]
      (fun c => c.task 1 = .send ⟨"a", { corr := 1 }, 1, .uiResult,
          .returned (.error .queueFull), none, none⟩ ∧
        firstMatch 1 (SendCall.answers ⟨"a", { corr := 1 }, 1, .uiResult,
            .returned (.error .queueFull), none, none⟩) c.shared.2 =
          some (3, { corr := 1, payload := some (.uiResult {}) }) ∧
        .timedOut 1 ∉ c.shared.2)
      (by decide +kernel)
    have hresult := hall _ c mapBoot_waitForResult distinctCorrs_waitForResult
      noRemovals_waitForResult corr_waitForResult run 1 _ _ 3 _ hcall rfl hfirst htimeout
    cases hresult
  · intro hall
    obtain ⟨b, c, run, ⟨hcall, hpush, hlog⟩, run', hcall'⟩ :=
      waiterHistory.exists_reach_via Pool.anyStep (fun _ => Pool.anyStep)
      (waitForResult.withLog [])
      [(0, .run), (0, .run), (1, .run), (1, .run), (1, .run), (1, .run), (3, .run), (4, .run),
        (4, .run)]
      [(6, .tick 1), (1, .run), (1, .run), (1, .run)]
      (fun b => b.task 1 = .send ⟨"a", { corr := 1 }, 1, .uiResult, .await 1, some 1, none⟩ ∧
        b.task 4 = .push "a" { corr := 1, payload := some (.uiResult {}) } none ∧
        b.shared.2 = [.pushed 4 { corr := 1, payload := some (.uiResult {}) },
          .pushed 3 { corr := 1, payload := some (.uiResult {}) }, .queued 1, .registered 1])
      (fun c => c.task 1 = .send ⟨"a", { corr := 1 }, 1, .uiResult,
        .returned (.error .timeout), some 1, none⟩)
      (by decide +kernel)
    have hsuffix : .pushed 4 { corr := 1, payload := some (.uiResult {}) } ::
        [.pushed 3 { corr := 1, payload := some (.uiResult {}) }, .queued 1, .registered 1] <:+
          b.shared.2 := by rw [hlog]
    exact hall _ b c mapBoot_waitForResult distinctCorrs_waitForResult noRemovals_waitForResult
      corr_waitForResult run run' 1 _ _ 4 _ _ _ _ hcall rfl hpush hsuffix (by simp) (by decide)
      hcall' rfl

end CsmProxy
