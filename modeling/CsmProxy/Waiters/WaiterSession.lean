import CsmProxy.Waiters.Tables

/-!
# On which session a waiter waits

When a session is removed, `remove_if` fails the waiters of its id; when a session
is replaced, `insert` does not, although the request went to the old session and
the `remove_if` of the replaced stream does nothing any more. Its waiters then stay
until their timeout (`not_waitersCurrent_replaced`). As long as no waiter is
registered for the id of an `insert`, each waiter belongs to a request that was
enqueued on the session that owns its id (`waitersCurrent_of_insertsUnawaited`).
Every method of the map is one step here.
-/

namespace CsmProxy

open Foundations

/-- The tables of the host, for the waiting calls `sending`. -/
def Host.tables (h : Host) (sending : Nat → Option SendCall) : Tables where
  waiter corr := h.instances.waiters.lookup corr
  recorded corr := h.instances.waiterInstance.lookup corr
  oneshot := h.oneshot
  token := h.instances.tokenOf
  sending := sending

/-- The tables in a configuration. -/
def tablesOf (c : Config Host MapCall) : Tables := c.shared.tables fun t => (c.task t).sending

/-! ## What the sections do to the tables -/

section Sections

variable (h : Host) (S : Nat → Option SendCall)

theorem tables_frame {m : InstanceMap} (hw : m.waiters = h.instances.waiters)
    (hr : m.waiterInstance = h.instances.waiterInstance) :
    ({ h with instances := m } : Host).tables S = { h.tables S with token := m.tokenOf } := by
  simp only [Host.tables, hw, hr]

theorem tables_insertWaiter (corr : UInt64) (kind : WaitKind) (me : Nat) :
    (({ h with instances := (h.instances.insertWaiter corr kind me).2 } : Host).dropSender
        (h.instances.insertWaiter corr kind me).1).tables S =
      ((h.tables S).setOneshot ((h.instances.waiters.lookup corr).map Prod.snd)
        .dropped).setWaiter corr (some (kind, me)) := by
  simp only [Host.tables, Tables.setWaiter, Tables.setOneshot, Host.dropSender_instances]
  congr 1
  · funext corr'
    exact HashMap.lookup_insert_ite ..
  · funext k
    exact Host.dropSender_oneshot ..

theorem tables_removeWaiter (corr : UInt64) :
    (({ h with instances := (h.instances.removeWaiter corr).2 } : Host).dropSender
        (h.instances.removeWaiter corr).1).tables S =
      ((h.tables S).setOneshot ((h.instances.waiters.lookup corr).map Prod.snd)
        .dropped).setWaiter corr none := by
  simp only [Host.tables, Tables.setWaiter, Tables.setOneshot, Host.dropSender_instances]
  congr 1
  · funext corr'
    exact HashMap.lookup_erase_ite ..
  · funext k
    exact Host.dropSender_oneshot ..

theorem tables_insertWaiterInstance (corr : UInt64) (id : String) :
    ({ h with instances := h.instances.insertWaiterInstance corr id } : Host).tables S =
      (h.tables S).setRecorded corr (some id) := by
  simp only [Host.tables, Tables.setRecorded]
  congr 1
  funext corr'
  exact HashMap.lookup_insert_ite ..

theorem tables_removeWaiterInstance (corr : UInt64) :
    ({ h with instances := h.instances.removeWaiterInstance corr } : Host).tables S =
      (h.tables S).setRecorded corr none := by
  simp only [Host.tables, Tables.setRecorded]
  congr 1
  funext corr'
  exact HashMap.lookup_erase_ite ..

theorem tables_takeMatching (msg : SimToServer) :
    ({ h with instances := (h.instances.takeMatching msg).2 } : Host).tables S =
      if (h.instances.takeMatching msg).1.isSome then (h.tables S).setWaiter msg.corr none
      else h.tables S := by
  obtain ⟨hinner, -, hrec⟩ := h.instances.takeMatching_frame msg
  have htoken : (h.instances.takeMatching msg).2.tokenOf = h.instances.tokenOf := by
    funext id
    rw [InstanceMap.tokenOf, hinner, InstanceMap.tokenOf]
  have hw : ∀ corr, _ := InstanceMap.lookup_takeMatching h.instances msg
  simp only [Host.tables, Tables.setWaiter, htoken, hrec, hw]
  cases (h.instances.takeMatching msg).1 <;> simp

theorem tables_sendReply (tx : Nat) (via : String) (msg : SimToServer) :
    (h.sendReply tx via msg).tables S = (h.tables S).setOneshot (some tx) (.sent via msg) := by
  simp only [Host.tables, Tables.setOneshot, Host.sendReply]
  congr 1
  funext k
  by_cases hk : k = tx
  · subst hk
    simp
  · have hne : some tx ≠ some k := fun heq => hk (Option.some.inj heq).symm
    rw [Function.update_of_ne hk, if_neg hne]

end Sections

theorem tablesOf_send {c : Config Host MapCall} {me : Nat} {g : Host} {call' : SendCall} :
    tablesOf ⟨g, Function.update c.task me (.send call')⟩ =
      (g.tables fun t => (c.task t).sending).setCall me call' := by
  simp only [tablesOf, Host.tables, Tables.setCall]
  congr 1
  funext t
  by_cases ht : t = me
  · subst ht
    simp [MapCall.sending]
  · simp [ht]

theorem tablesOf_other {c : Config Host MapCall} {me : Nat} {g : Host} {l : MapCall}
    (hc : (c.task me).sending = none) (hl : l.sending = none) :
    tablesOf ⟨g, Function.update c.task me l⟩ = g.tables fun t => (c.task t).sending := by
  simp only [tablesOf, Host.tables]
  congr 1
  funext t
  by_cases ht : t = me
  · subst ht
    simp [hc, hl]
  · simp [ht]

/-! ## One operation -/

/-- The assertion about the tables while the call `l` of task `me` is under way. -/
def Tables.During (T : Tables) (me : Nat) : MapCall → Prop
  | .send call =>
    match call.pc with
    | .get | .await _ | .returned _ => T.Inv none none none
    | .insertWaiter => T.Inv none none none ∧ T.oneshot me = .waiting
    | .insertInstance => T.Inv (some call.msg.corr) none none ∧ T.oneshot me = .waiting ∧
        ∃ kind, T.waiter call.msg.corr = some (kind, me)
    | .trySend => T.Inv (some call.msg.corr) none none ∧ T.oneshot me = .waiting ∧
        T.recorded call.msg.corr = some call.instanceId ∧
        ∃ kind, T.waiter call.msg.corr = some (kind, me)
    | .forget _ => T.Inv (some call.msg.corr) none none ∧
        ∃ kind, T.waiter call.msg.corr = some (kind, me)
    | .take _ => T.Inv (some call.msg.corr) none none ∧ T.recorded call.msg.corr = none ∧
        ∃ kind, T.waiter call.msg.corr = some (kind, me)
  | .push _ msg (some (.forget tx)) => T.Inv (some msg.corr) none (some tx) ∧
      T.waiter msg.corr = none ∧ (∀ corr kind, T.waiter corr ≠ some (kind, tx)) ∧
      ∀ call, T.sending tx = some call → call.pc ≠ .get
  | .push _ _ (some (.reply tx)) => T.Inv none none (some tx) ∧
      (∀ corr kind, T.waiter corr ≠ some (kind, tx)) ∧
      ∀ call, T.sending tx = some call → call.pc ≠ .get
  | .insert register _ _ | .inserting _ register _ _ => T.Inv none none none ∧
      ∀ corr, T.recorded corr ≠ some register.instanceId
  | .removeIf id _ (some .collect) => T.Inv none (some id) none
  | .removeIf id _ (some (.next rest)) => T.Inv none (some id) none ∧
      ∀ corr, T.recorded corr = some id → corr ∈ rest
  | .removeIf id _ (some (.take corr rest)) => T.Inv (some corr) (some id) none ∧
      T.recorded corr = none ∧ (∀ corr', T.recorded corr' = some id → corr' ∈ rest) ∧
      ∀ kind tx call, T.waiter corr = some (kind, tx) → T.sending tx = some call → call.pc ≠ .get
  | _ => T.Inv none none none

/-- A section of a waiting call keeps its assertion. -/
theorem SendCall.step_during {me : Nat} {h h' : Host} {S : Nat → Option SendCall}
    {call call' : SendCall} {i : Choice} (hme : S me = some call)
    (hs : call.step me h i = some (h', call')) (hd : (h.tables S).During me (.send call)) :
    ∃ T, h'.tables S = T ∧ (T.setCall me call').During me (.send call') := by
  obtain ⟨id, msg, timeout, kind, pc, session, via⟩ := call
  cases step_section hs with
  | connected hpc =>
    obtain rfl : pc = .get := hpc
    have hinv : (h.tables S).Inv none none none := hd
    have ho : h.oneshot me = .waiting := hinv.unanswered me _ hme rfl
    refine ⟨_, rfl, ?_, ho⟩
    exact hinv.setCall hme rfl (by simp) (not_awaits rfl (by simp))
      fun ha => absurd ha (not_awaits rfl (by simp))
  | unknown hpc =>
    obtain rfl : pc = .get := hpc
    have hinv : (h.tables S).Inv none none none := hd
    refine ⟨_, rfl, ?_⟩
    exact hinv.setCall hme rfl (by simp) (not_awaits rfl (by simp))
      fun ha => absurd ha (not_awaits rfl (by simp))
  | insertWaiter hpc =>
    obtain rfl : pc = .insertWaiter := hpc
    obtain ⟨hinv, ho⟩ : (h.tables S).Inv none none none ∧ h.oneshot me = .waiting := hd
    -- the sender that is dropped belongs to a call that waits already
    have hfree : ∀ kind', h.instances.waiters.lookup msg.corr ≠ some (kind', me) := by
      intro kind' hw
      obtain ⟨-, ⟨deadline, hpc⟩, -⟩ := hinv.pending msg.corr kind' me _ hw hme (by simp)
      cases hpc
    refine ⟨_, tables_insertWaiter h S msg.corr kind me, ?_, ?_, kind, if_pos rfl⟩
    · exact (hinv.insertWaiter kind hme).setCall hme rfl (by simp) (not_awaits rfl (by simp))
        fun _ _ => rfl
    · refine (if_neg fun hk => ?_).trans ho
      obtain ⟨⟨kind', k⟩, hw, rfl⟩ := Option.map_eq_some_iff.mp hk
      exact hfree kind' hw
  | insertInstance hpc =>
    obtain rfl : pc = .insertInstance := hpc
    obtain ⟨hinv, ho, kind', hw⟩ : (h.tables S).Inv (some msg.corr) none none ∧
      h.oneshot me = .waiting ∧ ∃ kind, h.instances.waiters.lookup msg.corr = some (kind, me) := hd
    refine ⟨_, tables_insertWaiterInstance h S msg.corr id, ?_, ho, if_pos rfl, kind', hw⟩
    exact (hinv.setRecorded (some id)).setCall hme rfl (by simp) (not_awaits rfl (by simp))
      fun _ _ => rfl
  | queued hpc hsend =>
    obtain rfl : pc = .trySend := hpc
    obtain ⟨hinv, ho, hr, kind', hw⟩ : (h.tables S).Inv (some msg.corr) none none ∧
      h.oneshot me = .waiting ∧ h.instances.waiterInstance.lookup msg.corr = some id ∧
      ∃ kind, h.instances.waiters.lookup msg.corr = some (kind, me) := hd
    obtain ⟨hw', hr', ht', hsome⟩ := InstanceMap.trySend_frame hsend
    obtain ⟨token, htoken⟩ := Option.isSome_iff_exists.mp hsome
    refine ⟨_, tables_frame h S hw' hr', ?_⟩
    rw [ht']
    have hsess : (h.instances.inner.lookup id).map Instance.token = some token := htoken
    have hna : ¬ SendCall.Awaits ⟨id, msg, timeout, kind, .trySend, session, via⟩ :=
      not_awaits rfl (by simp)
    dsimp only
    rw [hsess]
    exact Tables.Inv.await (T := h.tables S) _ hinv hme hna hw hr ho htoken
  | refused hpc hsend =>
    obtain rfl : pc = .trySend := hpc
    obtain ⟨hinv, ho, hr, kind', hw⟩ : (h.tables S).Inv (some msg.corr) none none ∧
      h.oneshot me = .waiting ∧ h.instances.waiterInstance.lookup msg.corr = some id ∧
      ∃ kind, h.instances.waiters.lookup msg.corr = some (kind, me) := hd
    refine ⟨_, rfl, ?_, kind', hw⟩
    exact hinv.setCall hme rfl (by simp) (not_awaits rfl (by simp)) fun _ _ => rfl
  | @forget err hpc =>
    obtain rfl : pc = .forget err := hpc
    obtain ⟨hinv, kind', hw⟩ : (h.tables S).Inv (some msg.corr) none none ∧
      ∃ kind, h.instances.waiters.lookup msg.corr = some (kind, me) := hd
    refine ⟨_, tables_removeWaiterInstance h S msg.corr, ?_, if_pos rfl, kind', hw⟩
    exact (hinv.setRecorded none).setCall hme rfl (by simp) (not_awaits rfl (by simp))
      fun _ _ => rfl
  | @take err hpc =>
    obtain rfl : pc = .take err := hpc
    obtain ⟨hinv, hr, kind', hw⟩ : (h.tables S).Inv (some msg.corr) none none ∧
      h.instances.waiterInstance.lookup msg.corr = none ∧
      ∃ kind, h.instances.waiters.lookup msg.corr = some (kind, me) := hd
    refine ⟨_, tables_removeWaiter h S msg.corr, ?_⟩
    refine (hinv.dropWaiter hr ?_).setCall hme rfl (by simp) (not_awaits rfl (by simp))
      fun ha => absurd ha (not_awaits rfl (by simp))
    intro kind₁ tx call₁ hw₁ hs₁ hpc
    obtain ⟨-, rfl⟩ := Prod.mk.inj (Option.some.inj (hw.symm.trans hw₁))
    obtain rfl := Option.some.inj (hs₁.symm.trans hme)
    cases hpc
  | @answered deadline via reply hpc ho | @disconnected deadline hpc ho =>
    obtain rfl : pc = .await deadline := hpc
    have hinv : (h.tables S).Inv none none none := hd
    have hsettled : h.oneshot me ≠ .waiting := by simp [ho]
    refine ⟨_, rfl, ?_⟩
    exact hinv.setCall hme rfl (by simp) (not_awaits rfl (by simp))
      fun _ hwait => absurd hwait hsettled
  | @timedOut deadline hpc ho hlate =>
    obtain rfl : pc = .await deadline := hpc
    have hinv : (h.tables S).Inv none none none := hd
    obtain ⟨kind', hw⟩ := hinv.awaiting me _ hme ⟨deadline, rfl⟩ ho (by simp)
    refine ⟨_, rfl, ?_, kind', hw⟩
    exact (hinv.exempt_corr msg.corr).setCall hme rfl (by simp) (not_awaits rfl (by simp))
      fun _ _ => rfl

/-- A section of a push keeps its assertion. -/
theorem PushPc.step_during {me : Nat} {h : Host} {S : Nat → Option SendCall} {id : String}
    {msg : SimToServer} {pc : PushPc} (hd : (h.tables S).During me (.push id msg (some pc))) :
    ∃ T, (pc.step id msg h).1.tables S = T ∧ T.During me (.push id msg (pc.step id msg h).2) := by
  cases pc with
  | complete =>
    have hinv : (h.tables S).Inv none none none := hd
    refine ⟨_, tables_takeMatching h S msg, ?_⟩
    rw [PushPc.step_complete]
    cases htake : (h.instances.takeMatching msg).1 with
    | none => exact hinv
    | some tx =>
      obtain ⟨-, kind, hw, -⟩ := InstanceMap.takeMatching_fst htake
      obtain ⟨hinv', hfree⟩ := hinv.takeWaiter hw
      refine ⟨hinv', if_pos rfl, hfree, ?_⟩
      intro call hcall hpc
      obtain ⟨-, ⟨deadline, ha⟩, -⟩ := hinv.pending _ kind tx call hw hcall (by simp)
      exact absurd (hpc.symm.trans ha) (by simp)
  | forget tx =>
    obtain ⟨hinv, hw, hfree, hget⟩ : (h.tables S).Inv (some msg.corr) none (some tx) ∧
      h.instances.waiters.lookup msg.corr = none ∧
      (∀ corr kind, h.instances.waiters.lookup corr ≠ some (kind, tx)) ∧
      ∀ call, S tx = some call → call.pc ≠ .get := hd
    refine ⟨_, tables_removeWaiterInstance h S msg.corr, ?_, hfree, hget⟩
    exact (hinv.setRecorded none).close_corr hw (if_pos rfl)
  | reply tx =>
    obtain ⟨hinv, hfree, hget⟩ : (h.tables S).Inv none none (some tx) ∧
      (∀ corr kind, h.instances.waiters.lookup corr ≠ some (kind, tx)) ∧
      ∀ call, S tx = some call → call.pc ≠ .get := hd
    exact ⟨_, tables_sendReply h S tx id msg, hinv.answer _ (by simp) hfree hget⟩
  | enqueue =>
    have hinv : (h.tables S).Inv none none none := hd
    refine ⟨_, tables_frame h S rfl rfl, ?_⟩
    rw [InstanceMap.tokenOf_enqueueInbound]
    exact hinv

/-- A section of a removal keeps its assertion. -/
theorem RemovePc.step_during {me token : Nat} {h h' : Host} {S : Nat → Option SendCall}
    {id : String} {pc : RemovePc} {out : Option RemovePc} {i : Choice}
    (hs : pc.step id token h i = some (h', out))
    (hd : (h.tables S).During me (.removeIf id token (some pc))) :
    ∃ T, h'.tables S = T ∧ T.During me (.removeIf id token out) := by
  cases step_section hs with
  | entry =>
    have hinv : (h.tables S).Inv none none none := hd
    refine ⟨_, tables_frame h S (InstanceMap.removeEntry_frame ..).1
      (InstanceMap.removeEntry_frame ..).2, ?_⟩
    split
    · exact hinv.exempt_id id fun id' hne => h.instances.tokenOf_removeEntry id token id' hne
    · rename_i hown
      rw [InstanceMap.removeEntry, if_neg hown]
      exact hinv
  | collect =>
    have hinv : (h.tables S).Inv none (some id) none := hd
    exact ⟨_, rfl, hinv, fun corr hr => InstanceMap.mem_waitersOf.mpr hr⟩
  | done =>
    obtain ⟨hinv, hrest⟩ : (h.tables S).Inv none (some id) none ∧
      ∀ corr, h.instances.waiterInstance.lookup corr = some id → corr ∈ (∅ : Finset UInt64) := hd
    exact ⟨_, rfl, hinv.close_id fun corr hr => absurd (hrest corr hr) (Finset.notMem_empty corr)⟩
  | @pick corr rest hmem =>
    obtain ⟨hinv, hrest⟩ : (h.tables S).Inv none (some id) none ∧
      ∀ corr, h.instances.waiterInstance.lookup corr = some id → corr ∈ rest := hd
    refine ⟨_, tables_removeWaiterInstance h S corr,
      (hinv.exempt_corr corr).setRecorded none, if_pos rfl, ?_, ?_⟩
    · intro corr' hr
      by_cases hc : corr' = corr
      · exact absurd ((if_pos hc).symm.trans hr) (by simp)
      · exact Finset.mem_erase.mpr ⟨hc, hrest corr' ((if_neg hc).symm.trans hr)⟩
    · intro kind tx call hw hcall hpc
      obtain ⟨-, ⟨deadline, ha⟩, -⟩ := hinv.pending corr kind tx call hw hcall (by simp)
      exact absurd (hpc.symm.trans ha) (by simp)
  | @take corr rest =>
    obtain ⟨hinv, hr, hrest, hget⟩ : (h.tables S).Inv (some corr) (some id) none ∧
      h.instances.waiterInstance.lookup corr = none ∧
      (∀ corr', h.instances.waiterInstance.lookup corr' = some id → corr' ∈ rest) ∧
      ∀ kind tx call, h.instances.waiters.lookup corr = some (kind, tx) → S tx = some call →
        call.pc ≠ .get := hd
    exact ⟨_, tables_removeWaiter h S corr, hinv.dropWaiter hr hget, hrest⟩

/-- A section of the call of task `me` keeps its assertion. -/
theorem during_fire {c c' : Config Host MapCall} {me : Nat} {i : Choice}
    (hf : mapCalls.fire c me i = some c') (hd : (tablesOf c).During me (c.task me)) :
    (tablesOf c').During me (c'.task me) := by
  obtain ⟨g, l, hs, rfl⟩ := Pool.fire_eq_some.mp hf
  change (c.task me).step me c.shared i = some (g, l) at hs
  change (tablesOf ⟨g, Function.update c.task me l⟩).During me (Function.update c.task me l me)
  rw [Function.update_self]
  have hnone : ∀ S, (∃ T, g.tables S = T ∧ T.During me l) → (g.tables S).During me l := by
    rintro S ⟨T, rfl, hT⟩
    exact hT
  cases hme : c.task me with
  | send call =>
    rw [hme] at hs hd
    obtain ⟨call', rfl, hp⟩ := MapCall.step_send hs
    obtain ⟨T, hT, hd'⟩ := SendCall.step_during (S := fun t => (c.task t).sending)
      (by rw [hme]; rfl) hp hd
    rw [tablesOf_send, hT]
    exact hd'
  | push id msg pc =>
    rw [hme] at hs hd
    obtain ⟨pc₀, rfl, -, rfl, rfl⟩ := MapCall.step_push hs
    rw [tablesOf_other (by rw [hme]; rfl) rfl]
    exact hnone _ (PushPc.step_during hd)
  | removeIf id token pc =>
    rw [hme] at hs hd
    cases pc with
    | none => cases hs
    | some pc =>
      obtain ⟨⟨g', out⟩, hp, he⟩ := Option.map_eq_some_iff.mp hs
      cases he
      rw [tablesOf_other (by rw [hme]; rfl) rfl]
      exact hnone _ (RemovePc.step_during hp hd)
  | insert register inboundCap outboundCap =>
    rw [hme] at hs hd
    cases i <;> cases hs
    rw [tablesOf_other (by rw [hme]; rfl) rfl]
    exact hd
  | inserting token register inboundCap outboundCap =>
    rw [hme] at hs hd
    obtain ⟨hinv, hfree⟩ := hd
    cases i <;> cases hs
    rw [tablesOf_other (by rw [hme]; rfl) rfl]
    refine hnone _ ⟨_, tables_frame _ _ rfl rfl, ?_⟩
    refine (hinv.exempt_id register.instanceId fun id hne => ?_).close_id hfree
    rw [InstanceMap.tokenOf_insertInstance, if_neg hne]
    rfl
  | inserted token register =>
    rw [hme] at hs
    cases hs
  | update u returned =>
    rw [hme] at hs hd
    obtain ⟨hw, hr, ht⟩ := u.apply_frame c.shared.instances
    cases returned <;> cases i <;> cases hs
    rw [tablesOf_other (by rw [hme]; rfl) rfl]
    refine hnone _ ⟨_, tables_frame _ _ hw hr, ?_⟩
    rw [ht]
    exact hd
  | environment =>
    rw [hme] at hs hd
    obtain ⟨g', hp, he⟩ := Option.map_eq_some_iff.mp hs
    cases he
    obtain ⟨⟨hw, hr, ho⟩, ht⟩ := environmentStep_frame hp
    rw [tablesOf_other (by rw [hme]; rfl) rfl]
    have htab : g.tables (fun t => (c.task t).sending) = tablesOf c := by
      simp only [tablesOf, Host.tables, hw, hr, ho, ht]
    rw [htab]
    exact hd

/-! ## Runs of operations -/

/-- No waiter is registered for the id of a session that is about to be inserted. -/
def insertsUnawaited (c : Config Host MapCall) (me : Nat) : Bool :=
  match c.task me with
  | .insert register _ _ => c.shared.instances.waitersOf register.instanceId = ∅
  | _ => true

/-- The guard of the runs in which no awaited session is replaced. -/
def InsertsUnawaited : Pool.Guard Host MapCall (List Choice) := fun c me _ =>
  insertsUnawaited c me = true

instance : ∀ (c : Config Host MapCall) (me : Nat) (is : List Choice),
    Decidable (InsertsUnawaited c me is) :=
  fun c me _ => inferInstanceAs (Decidable (insertsUnawaited c me = true))

/-- Between two operations nothing is open. -/
structure OperationsInv (c : Config Host MapCall) : Prop where
  tables : (tablesOf c).Inv none none none
  atRest : ∀ t, (c.task t).atRest = true

namespace OperationsInv

theorem of_boot {c : Config Host MapCall} (h : MapBoot c) : OperationsInv c := by
  obtain ⟨default, config, now, hshared⟩ := h.shared
  have hw : ∀ corr, (tablesOf c).waiter corr = none := by
    intro corr
    simp only [tablesOf, Host.tables, hshared]
    exact HashMap.lookup_empty corr
  have hr : ∀ corr, (tablesOf c).recorded corr = none := by
    intro corr
    simp only [tablesOf, Host.tables, hshared]
    exact HashMap.lookup_empty corr
  have hsend : ∀ t call, (tablesOf c).sending t = some call → call.pc = .get := by
    intro t call ht
    have hf := h.fresh t
    rw [MapCall.sending_eq_some.mp ht] at hf
    exact congrArg SendCall.pc hf
  refine ⟨⟨?_, ?_, ?_, ?_, ?_⟩, ?_⟩
  · intro corr kind tx h
    exact absurd ((hw corr).symm.trans h) (by simp)
  · intro corr kind tx call h
    exact absurd ((hw corr).symm.trans h) (by simp)
  · intro corr id h
    exact absurd ((hr corr).symm.trans h) (by simp)
  · rintro t call ht ⟨deadline, ha⟩
    exact absurd ((hsend t call ht).symm.trans ha) (by simp)
  · intro t call _ _
    simp only [tablesOf, Host.tables, hshared]
  · intro t
    have hf := h.fresh t
    cases ht : c.task t with
    | send call =>
      rw [ht] at hf
      rw [hf]
      rfl
    | push id msg pc =>
      rw [ht] at hf
      obtain rfl : pc = some .complete := hf
      rfl
    | removeIf id token pc =>
      rw [ht] at hf
      obtain rfl : pc = some .entry := hf
      rfl
    | inserting token register inboundCap outboundCap =>
      rw [ht] at hf
      exact hf.elim
    | _ => rfl

/-- An operation that may begin finds nothing open. -/
theorem during {c : Config Host MapCall} {me : Nat} {is : List Choice} (inv : OperationsInv c)
    (guard : InsertsUnawaited c me is) : (tablesOf c).During me (c.task me) := by
  have hrest := inv.atRest me
  cases hme : c.task me with
  | send call =>
    rw [hme] at hrest
    obtain ⟨id, msg, timeout, kind, pc, session, via⟩ := call
    cases pc <;> first | exact inv.tables | cases hrest
  | push id msg pc =>
    rw [hme] at hrest
    rcases pc with _ | pc
    · exact inv.tables
    · cases pc <;> first | exact inv.tables | cases hrest
  | insert register inboundCap outboundCap =>
    refine ⟨inv.tables, fun corr hr => ?_⟩
    simp only [InsertsUnawaited, insertsUnawaited, hme] at guard
    have hmem := InstanceMap.mem_waitersOf.mpr hr
    rw [of_decide_eq_true guard] at hmem
    exact absurd hmem (Finset.notMem_empty corr)
  | inserting token register inboundCap outboundCap =>
    rw [hme] at hrest
    cases hrest
  | removeIf id token pc =>
    rw [hme] at hrest
    rcases pc with _ | pc
    · exact inv.tables
    · cases pc <;> first | exact inv.tables | cases hrest
  | _ => exact inv.tables

/-- An operation that has come to rest leaves nothing open. -/
theorem inv_of_during {T : Tables} {me : Nat} {l : MapCall} (hrest : l.atRest = true)
    (h : T.During me l) : T.Inv none none none := by
  cases l with
  | send call =>
    obtain ⟨id, msg, timeout, kind, pc, session, via⟩ := call
    cases pc <;> first | exact h | cases hrest
  | push id msg pc =>
    rcases pc with _ | pc
    · exact h
    · cases pc <;> first | exact h | cases hrest
  | insert register inboundCap outboundCap => exact h.1
  | inserting token register inboundCap outboundCap => cases hrest
  | removeIf id token pc =>
    rcases pc with _ | pc
    · exact h
    · cases pc <;> first | exact h | cases hrest
  | _ => exact h

theorem step {c c' : Config Host MapCall} {me : Nat} {is : List Choice} (inv : OperationsInv c)
    (guard : InsertsUnawaited c me is) (hf : mapOperations.fire c me is = some c') :
    OperationsInv c' := by
  obtain ⟨run, hrest, hother⟩ := Pool.reach_of_fire hf
  have hduring : (tablesOf c').During me (c'.task me) := by
    clear hrest hother hf
    induction run with
    | refl => exact inv.during guard
    | tail _ hme hfire ih =>
      obtain rfl := hme
      exact during_fire hfire ih
  refine ⟨inv_of_during hrest hduring, fun t => ?_⟩
  by_cases ht : t = me
  · rw [ht]
    exact hrest
  · rw [hother t ht]
    exact inv.atRest t

theorem of_reach {c₀ c : Config Host MapCall} (boot : MapBoot c₀)
    (run : mapOperations.Reach InsertsUnawaited c₀ c) : OperationsInv c :=
  run.invariant (of_boot boot) fun _ _ _ _ inv guard hf => inv.step guard hf

end OperationsInv

/-- No waiter outlives the session its request was sent on. -/
structure WaitersCurrent (c : Config Host MapCall) : Prop where
  /-- The request of every registered waiter was enqueued on the session that owns its id. -/
  current : ∀ corr kind tx, c.shared.instances.waiters.lookup corr = some (kind, tx) →
    ∃ call deadline token, c.task tx = .send call ∧ call.pc = .await deadline ∧
      call.msg.corr = corr ∧ call.session = some token ∧
      c.shared.instances.tokenOf call.instanceId = some token
  /-- A call without a reply whose session does not own the id any more has been failed:
  all it can do is to return `Disconnected`. -/
  failed : ∀ t call deadline token, c.task t = .send call → call.pc = .await deadline →
    call.session = some token → c.shared.instances.tokenOf call.instanceId ≠ some token →
    (∀ via reply, c.shared.oneshot t ≠ .sent via reply) →
      c.shared.oneshot t = .dropped ∧ ∀ i h' call', call.step t c.shared i = some (h', call') →
        call'.pc = .returned (.error .disconnected)

theorem SendCall.step_dropped {me : Nat} {h h' : Host} {call call' : SendCall} {deadline : Nat}
    {i : Choice} (hpc : call.pc = .await deadline) (ho : h.oneshot me = .dropped)
    (hs : call.step me h i = some (h', call')) :
    call'.pc = .returned (.error .disconnected) := by
  obtain ⟨id, msg, timeout, kind, pc, session, via⟩ := call
  obtain rfl : pc = .await deadline := hpc
  cases i with
  | run =>
    simp only [step, ho] at hs
    cases hs
    rfl
  | _ => cases hs

/-- **Waiters and sessions.** Along every run of operations in which no session is
inserted under an id that has a waiter, no waiter outlives its session. -/
theorem waitersCurrent_of_insertsUnawaited {c₀ c : Config Host MapCall} (boot : MapBoot c₀)
    (run : mapOperations.Reach InsertsUnawaited c₀ c) : WaitersCurrent c := by
  have inv := (OperationsInv.of_reach boot run).tables
  have hpending : ∀ corr kind tx call, c.shared.instances.waiters.lookup corr = some (kind, tx) →
      c.task tx = .send call → call.Awaits ∧
        ∃ token, call.session = some token ∧
          c.shared.instances.tokenOf call.instanceId = some token := by
    intro corr kind tx call hw ht
    obtain ⟨-, ha, -, token, hsess, htok⟩ :=
      inv.pending corr kind tx call hw (MapCall.sending_eq_some.mpr ht) (by simp)
    exact ⟨ha, token, hsess, htok (by simp)⟩
  refine ⟨?_, ?_⟩
  · intro corr kind tx hw
    obtain ⟨call, hs, hcorr⟩ := inv.registered corr kind tx hw
    have ht := MapCall.sending_eq_some.mp hs
    obtain ⟨⟨deadline, ha⟩, token, hsess, htok⟩ := hpending corr kind tx call hw ht
    exact ⟨call, deadline, token, ht, ha, hcorr, hsess, htok⟩
  · intro t call deadline token ht ha hsess hgone hunanswered
    have hdropped : c.shared.oneshot t = .dropped := by
      cases ho : c.shared.oneshot t with
      | dropped => rfl
      | sent via reply => exact absurd ho (hunanswered via reply)
      | waiting =>
        obtain ⟨kind, hw⟩ := inv.awaiting t call (MapCall.sending_eq_some.mpr ht) ⟨deadline, ha⟩
          ho (by simp)
        obtain ⟨-, token', hsess', htok⟩ := hpending _ kind t call hw ht
        rw [Option.some.inj (hsess.symm.trans hsess')] at hgone
        exact absurd htok hgone
    exact ⟨hdropped, fun i h' call' hs => SendCall.step_dropped ha hdropped hs⟩

/-- The request goes to the first session of `a`; the session is removed, the call
fails, and `a` connects again. -/
theorem waitersCurrent_removed :
    ∃ c, mapOperations.Reach InsertsUnawaited (newMapWith [.insert { instanceId := "a" } 128 128,
          .send { instanceId := "a", msg := { corr := 1 }, timeout := 1, kind := .inputAck },
          .removeIf "a" 1 (some .entry), .insert { instanceId := "a" } 128 128]) c ∧
      (c.task 1).sending.map SendCall.pc = some (.returned (.error .disconnected)) ∧
      c.shared.instances.tokenOf "a" = some 2 ∧ WaitersCurrent c := by
  obtain ⟨c, run, hpc, htoken⟩ := mapOperations.exists_reach InsertsUnawaited
    (newMapWith [.insert { instanceId := "a" } 128 128,
      .send { instanceId := "a", msg := { corr := 1 }, timeout := 1, kind := .inputAck },
      .removeIf "a" 1 (some .entry), .insert { instanceId := "a" } 128 128])
    [(0, [.run, .run]), (1, [.run, .run, .run, .run]), (2, [.run, .run, .pick 1, .run, .run]),
      (1, [.run]), (3, [.run, .run])]
    (fun c => (c.task 1).sending.map SendCall.pc = some (.returned (.error .disconnected)) ∧
      c.shared.instances.tokenOf "a" = some 2) (by decide +kernel)
  exact ⟨c, run, hpc, htoken, waitersCurrent_of_insertsUnawaited
    (mapBoot_newMapWith (by simp [MapCall.Fresh])) run⟩

/-- The second session of `a` replaces the first one; the waiter for the request that
went to the first one stays registered, and its call ends with a timeout. -/
theorem not_waitersCurrent_replaced :
    ¬ ∀ c₀ c, MapBoot c₀ → mapOperations.Reach Pool.anyStep c₀ c → WaitersCurrent c := by
  intro hall
  obtain ⟨c, run, hcall, hw, htoken⟩ := mapOperations.exists_reach Pool.anyStep
    (newMapWith [.insert { instanceId := "a" } 128 128,
      .send { instanceId := "a", msg := { corr := 1 }, timeout := 1, kind := .inputAck },
      .insert { instanceId := "a" } 128 128])
    [(0, [.run, .run]), (1, [.run, .run, .run, .run]), (2, [.run, .run])]
    (fun c => c.task 1 = .send ⟨"a", { corr := 1 }, 1, .inputAck, .await 1, some 1, none⟩ ∧
      c.shared.instances.waiters.lookup 1 = some (.inputAck, 1) ∧
      c.shared.instances.tokenOf "a" = some 2) (by decide +kernel)
  have hcurrent := (hall _ c (mapBoot_newMapWith (by simp [MapCall.Fresh])) run).current
  obtain ⟨call, deadline, token, ht, -, -, hsess, htok⟩ := hcurrent 1 .inputAck 1 hw
  rw [hcall] at ht
  cases ht
  obtain rfl := Option.some.inj hsess
  exact absurd (htoken.symm.trans htok) (by decide)

end CsmProxy
