import CsmProxy.Waiters.Steps

/-!
# The waiter tables

What the tables of waiters say about the waiting calls, apart from the map that
stores them: `Tables.Inv` is the invariant of the map between two operations, and
its three exemptions are what an operation in the middle may leave open: one corr,
one instance id, one call. There is one lemma for each change an operation makes.
-/

namespace CsmProxy

/-- The tables of waiters, the owner of every id, and the waiting calls. -/
structure Tables where
  waiter : UInt64 → Option (WaitKind × Nat)
  recorded : UInt64 → Option String
  oneshot : Nat → Oneshot
  token : String → Option Nat
  sending : Nat → Option SendCall

/-- The call is waiting for its reply. -/
def SendCall.Awaits (c : SendCall) : Prop := ∃ deadline, c.pc = .await deadline

theorem SendCall.not_awaits {c : SendCall} {pc : SendPc} (hpc : c.pc = pc)
    (h : ∀ deadline, pc ≠ .await deadline) : ¬ c.Awaits := by
  rintro ⟨deadline, hawait⟩
  exact h deadline (hpc.symm.trans hawait)

namespace Tables

/-- Every waiter belongs to a call that waits for a reply on the session that owns
its instance id, and every such call has its waiter. -/
structure Inv (corr? : Option UInt64) (id? : Option String) (call? : Option Nat) (T : Tables) :
    Prop where
  registered : ∀ corr kind tx, T.waiter corr = some (kind, tx) →
    ∃ call, T.sending tx = some call ∧ call.msg.corr = corr
  pending : ∀ corr kind tx call, T.waiter corr = some (kind, tx) → T.sending tx = some call →
    corr? ≠ some corr → T.oneshot tx = .waiting ∧ call.Awaits ∧
      T.recorded corr = some call.instanceId ∧ ∃ token, call.session = some token ∧
        (id? ≠ some call.instanceId → T.token call.instanceId = some token)
  recorded : ∀ corr id, T.recorded corr = some id → corr? ≠ some corr →
    ∃ kind tx, T.waiter corr = some (kind, tx)
  awaiting : ∀ t call, T.sending t = some call → call.Awaits → T.oneshot t = .waiting →
    call? ≠ some t → ∃ kind, T.waiter call.msg.corr = some (kind, t)
  unanswered : ∀ t call, T.sending t = some call → call.pc = .get → T.oneshot t = .waiting

variable {T : Tables} {corr? : Option UInt64} {id? : Option String} {call? : Option Nat}

/-- The call `me` moves on. -/
def setCall (T : Tables) (me : Nat) (call : SendCall) : Tables :=
  { T with sending := fun t => if t = me then some call else T.sending t }

/-- Store or delete a waiter. -/
def setWaiter (T : Tables) (corr : UInt64) (w : Option (WaitKind × Nat)) : Tables :=
  { T with waiter := fun corr' => if corr' = corr then w else T.waiter corr' }

/-- Store or delete the instance of a waiter. -/
def setRecorded (T : Tables) (corr : UInt64) (id : Option String) : Tables :=
  { T with recorded := fun corr' => if corr' = corr then id else T.recorded corr' }

/-- Change what a receiver sees. -/
def setOneshot (T : Tables) (tx : Option Nat) (o : Oneshot) : Tables :=
  { T with oneshot := fun k => if tx = some k then o else T.oneshot k }

namespace Inv

/-- A sender is stored under one corr only. -/
theorem corr_unique (h : T.Inv corr? id? call?) {corr corr' : UInt64} {kind kind' : WaitKind}
    {tx : Nat} (hw : T.waiter corr = some (kind, tx)) (hw' : T.waiter corr' = some (kind', tx)) :
    corr = corr' := by
  obtain ⟨call, hs, rfl⟩ := h.registered corr kind tx hw
  obtain ⟨call', hs', rfl⟩ := h.registered corr' kind' tx hw'
  obtain rfl := Option.some.inj (hs.symm.trans hs')
  rfl

theorem exempt_corr (h : T.Inv none id? call?) (corr : UInt64) :
    T.Inv (some corr) id? call? where
  registered := h.registered
  pending corr' kind tx call hw hs _ := h.pending corr' kind tx call hw hs (by simp)
  recorded corr' id hr _ := h.recorded corr' id hr (by simp)
  awaiting := h.awaiting
  unanswered := h.unanswered

/-- Nothing is open under a corr that neither table has. -/
theorem close_corr {corr : UInt64} (h : T.Inv (some corr) id? call?) (hw : T.waiter corr = none)
    (hr : T.recorded corr = none) : T.Inv none id? call? where
  registered := h.registered
  pending corr' kind tx call hw' hs _ := by
    refine h.pending corr' kind tx call hw' hs ?_
    rintro heq
    obtain rfl := Option.some.inj heq
    exact absurd (hw.symm.trans hw') (by simp)
  recorded corr' id hr' _ := by
    refine h.recorded corr' id hr' ?_
    rintro heq
    obtain rfl := Option.some.inj heq
    exact absurd (hr.symm.trans hr') (by simp)
  awaiting := h.awaiting
  unanswered := h.unanswered

/-- The owner of one id changes. -/
theorem exempt_id (h : T.Inv corr? none call?) {token : String → Option Nat} (id : String)
    (ht : ∀ id', id' ≠ id → token id' = T.token id') :
    Inv corr? (some id) call? { T with token := token } where
  registered := h.registered
  pending corr kind tx call hw hs hc := by
    obtain ⟨ho, ha, hr, tok, hsess, htok⟩ := h.pending corr kind tx call hw hs hc
    refine ⟨ho, ha, hr, tok, hsess, fun hne => ?_⟩
    have hid : call.instanceId ≠ id := fun heq => hne (congrArg some heq.symm)
    exact (ht _ hid).trans (htok (by simp))
  recorded := h.recorded
  awaiting := h.awaiting
  unanswered := h.unanswered

/-- Nothing is open for an id that has no waiter. -/
theorem close_id {id : String} (h : T.Inv none (some id) call?)
    (hr : ∀ corr, T.recorded corr ≠ some id) : T.Inv none none call? where
  registered := h.registered
  pending corr kind tx call hw hs _ := by
    obtain ⟨ho, ha, hrec, tok, hsess, htok⟩ := h.pending corr kind tx call hw hs (by simp)
    refine ⟨ho, ha, hrec, tok, hsess, fun _ => htok fun heq => ?_⟩
    obtain rfl := Option.some.inj heq
    exact hr corr hrec
  recorded := h.recorded
  awaiting := h.awaiting
  unanswered := h.unanswered

theorem setRecorded {corr : UInt64} (h : T.Inv (some corr) id? call?) (id : Option String) :
    (T.setRecorded corr id).Inv (some corr) id? call? where
  registered := h.registered
  pending corr' kind tx call hw hs hne := by
    obtain ⟨ho, ha, hr, hrest⟩ := h.pending corr' kind tx call hw hs hne
    have hcorr : corr' ≠ corr := fun heq => hne (congrArg some heq.symm)
    exact ⟨ho, ha, (if_neg hcorr).trans hr, hrest⟩
  recorded corr' id' hr hne := by
    have hcorr : corr' ≠ corr := fun heq => hne (congrArg some heq.symm)
    exact h.recorded corr' id' ((if_neg hcorr).symm.trans hr) hne
  awaiting := h.awaiting
  unanswered := h.unanswered

/-- A call that has no open waiter moves on and does not wait. -/
theorem setCall (h : T.Inv corr? id? call?) {me : Nat} {call call' : SendCall}
    (hme : T.sending me = some call) (hcorr : call'.msg.corr = call.msg.corr)
    (hget : call'.pc ≠ .get) (hna : ¬ call'.Awaits)
    (hopen : call.Awaits → T.oneshot me = .waiting → corr? = some call.msg.corr) :
    (T.setCall me call').Inv corr? id? call? where
  registered corr kind tx hw := by
    obtain ⟨call₁, hs, rfl⟩ := h.registered corr kind tx hw
    by_cases htx : tx = me
    · subst htx
      obtain rfl := Option.some.inj (hs.symm.trans hme)
      exact ⟨call', if_pos rfl, hcorr⟩
    · exact ⟨call₁, (if_neg htx).trans hs, rfl⟩
  pending corr kind tx call₁ hw hs hne := by
    by_cases htx : tx = me
    · -- the waiter of `me` would be open
      subst htx
      obtain ⟨call₂, hs₂, rfl⟩ := h.registered corr kind tx hw
      obtain rfl := Option.some.inj (hs₂.symm.trans hme)
      obtain ⟨ho, ha, -⟩ := h.pending _ kind tx call₂ hw hme hne
      exact absurd (hopen ha ho) hne
    · exact h.pending corr kind tx call₁ hw ((if_neg htx).symm.trans hs) hne
  recorded := h.recorded
  awaiting t call₁ hs ha ho hne := by
    by_cases ht : t = me
    · subst ht
      obtain rfl := Option.some.inj ((if_pos rfl).symm.trans hs)
      exact absurd ha hna
    · exact h.awaiting t call₁ ((if_neg ht).symm.trans hs) ha ho hne
  unanswered t call₁ hs hpc := by
    by_cases ht : t = me
    · subst ht
      obtain rfl := Option.some.inj ((if_pos rfl).symm.trans hs)
      exact absurd hpc hget
    · exact h.unanswered t call₁ ((if_neg ht).symm.trans hs) hpc

/-- A new waiter is stored, and the sender stored under its corr before is dropped. -/
theorem insertWaiter (h : T.Inv none id? call?) {me : Nat} {call : SendCall} (kind : WaitKind)
    (hme : T.sending me = some call) :
    ((T.setOneshot ((T.waiter call.msg.corr).map Prod.snd) .dropped).setWaiter call.msg.corr
      (some (kind, me))).Inv (some call.msg.corr) id? call? := by
  have hold : ∀ k, (T.waiter call.msg.corr).map Prod.snd = some k →
      ∃ kind', T.waiter call.msg.corr = some (kind', k) := by
    intro k hk
    obtain ⟨⟨kind', k'⟩, hw, rfl⟩ := Option.map_eq_some_iff.mp hk
    exact ⟨kind', hw⟩
  refine ⟨?_, ?_, ?_, ?_, ?_⟩
  · intro corr kind' tx hw
    by_cases hc : corr = call.msg.corr
    · subst hc
      obtain ⟨-, rfl⟩ := Prod.mk.inj (Option.some.inj ((if_pos rfl).symm.trans hw))
      exact ⟨call, hme, rfl⟩
    · exact h.registered corr kind' tx ((if_neg hc).symm.trans hw)
  · intro corr kind' tx call₁ hw hs hne
    have hc : corr ≠ call.msg.corr := fun heq => hne (congrArg some heq.symm)
    replace hw : T.waiter corr = some (kind', tx) := (if_neg hc).symm.trans hw
    obtain ⟨ho, hrest⟩ := h.pending corr kind' tx call₁ hw hs (by simp)
    refine ⟨(if_neg fun hk => ?_).trans ho, hrest⟩
    obtain ⟨kind₂, hw₂⟩ := hold tx hk
    exact hc (h.corr_unique hw hw₂)
  · intro corr id hr hne
    have hc : corr ≠ call.msg.corr := fun heq => hne (congrArg some heq.symm)
    obtain ⟨kind', tx, hw⟩ := h.recorded corr id hr (by simp)
    exact ⟨kind', tx, (if_neg hc).trans hw⟩
  · intro t call₁ hs ha ho hne
    by_cases hk : (T.waiter call.msg.corr).map Prod.snd = some t
    · exact absurd ((if_pos hk).symm.trans ho) (by simp)
    · obtain ⟨kind', hw⟩ := h.awaiting t call₁ hs ha ((if_neg hk).symm.trans ho) hne
      have hc : call₁.msg.corr ≠ call.msg.corr := by
        intro heq
        rw [heq] at hw
        exact hk (by rw [hw]; rfl)
      exact ⟨kind', (if_neg hc).trans hw⟩
  · intro t call₁ hs hpc
    refine (if_neg fun hk => ?_).trans (h.unanswered t call₁ hs hpc)
    obtain ⟨kind', hw⟩ := hold t hk
    obtain ⟨-, ⟨deadline, ha⟩, -⟩ := h.pending _ kind' t call₁ hw hs (by simp)
    exact absurd (hpc.symm.trans ha) (by simp)

/-- The request is enqueued: the call begins to wait. -/
theorem await {me : Nat} {call : SendCall} {kind : WaitKind} {token : Nat} (deadline : Nat)
    (h : T.Inv (some call.msg.corr) none call?) (hme : T.sending me = some call)
    (hna : ¬ call.Awaits)
    (hw : T.waiter call.msg.corr = some (kind, me))
    (hr : T.recorded call.msg.corr = some call.instanceId) (ho : T.oneshot me = .waiting)
    (ht : T.token call.instanceId = some token) :
    (T.setCall me { call with pc := .await deadline, session := some token }).Inv none none call? where
  registered corr kind' tx hw' := by
    obtain ⟨call₁, hs, rfl⟩ := h.registered corr kind' tx hw'
    by_cases htx : tx = me
    · subst htx
      obtain rfl := Option.some.inj (hs.symm.trans hme)
      exact ⟨_, if_pos rfl, rfl⟩
    · exact ⟨call₁, (if_neg htx).trans hs, rfl⟩
  pending corr kind' tx call₁ hw' hs _ := by
    by_cases htx : tx = me
    · subst htx
      obtain rfl := Option.some.inj ((if_pos rfl).symm.trans hs)
      obtain rfl := h.corr_unique hw hw'
      exact ⟨ho, ⟨deadline, rfl⟩, hr, token, rfl, fun _ => ht⟩
    · refine h.pending corr kind' tx call₁ hw' ((if_neg htx).symm.trans hs) fun heq => ?_
      obtain rfl := Option.some.inj heq
      exact htx (Prod.mk.inj (Option.some.inj (hw'.symm.trans hw))).2
  recorded corr id hr' _ := by
    by_cases hc : corr = call.msg.corr
    · subst hc
      exact ⟨kind, me, hw⟩
    · exact h.recorded corr id hr' fun heq => hc (Option.some.inj heq).symm
  awaiting t call₁ hs ha ho' hne := by
    by_cases htm : t = me
    · subst htm
      obtain rfl := Option.some.inj ((if_pos rfl).symm.trans hs)
      exact ⟨kind, hw⟩
    · exact h.awaiting t call₁ ((if_neg htm).symm.trans hs) ha ho' hne
  unanswered t call₁ hs hpc := by
    by_cases htm : t = me
    · subst htm
      obtain rfl := Option.some.inj ((if_pos rfl).symm.trans hs)
      cases hpc
    · exact h.unanswered t call₁ ((if_neg htm).symm.trans hs) hpc

/-- The waiter under a corr is deleted and its sender dropped. -/
theorem dropWaiter {corr : UInt64} (h : T.Inv (some corr) id? call?)
    (hr : T.recorded corr = none)
    (hget : ∀ kind tx call, T.waiter corr = some (kind, tx) → T.sending tx = some call →
      call.pc ≠ .get) :
    ((T.setOneshot ((T.waiter corr).map Prod.snd) .dropped).setWaiter corr none).Inv none id?
      call? := by
  have hold : ∀ k, (T.waiter corr).map Prod.snd = some k → ∃ kind, T.waiter corr = some (kind, k) := by
    intro k hk
    obtain ⟨⟨kind', k'⟩, hw, rfl⟩ := Option.map_eq_some_iff.mp hk
    exact ⟨kind', hw⟩
  have hgone : ((T.setOneshot ((T.waiter corr).map Prod.snd) .dropped).setWaiter corr none).waiter corr =
      none := if_pos rfl
  refine close_corr ⟨?_, ?_, ?_, ?_, ?_⟩ hgone hr
  · intro corr' kind tx hw
    by_cases hc : corr' = corr
    · exact absurd ((if_pos hc).symm.trans hw) (by simp)
    · exact h.registered corr' kind tx ((if_neg hc).symm.trans hw)
  · intro corr' kind tx call hw hs hne
    have hc : corr' ≠ corr := fun heq => hne (congrArg some heq.symm)
    replace hw : T.waiter corr' = some (kind, tx) := (if_neg hc).symm.trans hw
    obtain ⟨ho, hrest⟩ := h.pending corr' kind tx call hw hs hne
    refine ⟨(if_neg fun hk => ?_).trans ho, hrest⟩
    obtain ⟨kind', hw'⟩ := hold tx hk
    exact hc (h.corr_unique hw hw')
  · intro corr' id hr' hne
    have hc : corr' ≠ corr := fun heq => hne (congrArg some heq.symm)
    obtain ⟨kind, tx, hw⟩ := h.recorded corr' id hr' hne
    exact ⟨kind, tx, (if_neg hc).trans hw⟩
  · intro t call hs ha ho hne
    by_cases hk : (T.waiter corr).map Prod.snd = some t
    · exact absurd ((if_pos hk).symm.trans ho) (by simp)
    · obtain ⟨kind, hw⟩ := h.awaiting t call hs ha ((if_neg hk).symm.trans ho) hne
      have hc : call.msg.corr ≠ corr := by
        rintro rfl
        exact hk (by rw [hw]; rfl)
      exact ⟨kind, (if_neg hc).trans hw⟩
  · intro t call hs hpc
    refine (if_neg fun hk => ?_).trans (h.unanswered t call hs hpc)
    obtain ⟨kind, hw⟩ := hold t hk
    exact hget kind t call hw hs hpc

/-- A push takes a waiter out of the table. -/
theorem takeWaiter (h : T.Inv none id? none) {corr : UInt64} {kind : WaitKind} {tx : Nat}
    (hw : T.waiter corr = some (kind, tx)) :
    (T.setWaiter corr none).Inv (some corr) id? (some tx) ∧
      ∀ corr' kind', (T.setWaiter corr none).waiter corr' ≠ some (kind', tx) := by
  refine ⟨⟨?_, ?_, ?_, ?_, h.unanswered⟩, ?_⟩
  · intro corr' kind' tx' hw'
    by_cases hc : corr' = corr
    · exact absurd ((if_pos hc).symm.trans hw') (by simp)
    · exact h.registered corr' kind' tx' ((if_neg hc).symm.trans hw')
  · intro corr' kind' tx' call hw' hs hne
    have hc : corr' ≠ corr := fun heq => hne (congrArg some heq.symm)
    exact h.pending corr' kind' tx' call ((if_neg hc).symm.trans hw') hs (by simp)
  · intro corr' id hr hne
    have hc : corr' ≠ corr := fun heq => hne (congrArg some heq.symm)
    obtain ⟨kind', tx', hw'⟩ := h.recorded corr' id hr (by simp)
    exact ⟨kind', tx', (if_neg hc).trans hw'⟩
  · intro t call hs ha ho hne
    obtain ⟨kind', hw'⟩ := h.awaiting t call hs ha ho (by simp)
    have hc : call.msg.corr ≠ corr := by
      rintro rfl
      exact hne (congrArg some (Prod.mk.inj (Option.some.inj (hw.symm.trans hw'))).2)
    exact ⟨kind', (if_neg hc).trans hw'⟩
  · intro corr' kind' hw'
    by_cases hc : corr' = corr
    · exact absurd ((if_pos hc).symm.trans hw') (by simp)
    · exact hc (h.corr_unique ((if_neg hc).symm.trans hw') hw)

/-- The push sends the reply to the sender it took. -/
theorem answer {tx : Nat} (h : T.Inv corr? id? (some tx)) (o : Oneshot) (ho : o ≠ .waiting)
    (hfree : ∀ corr kind, T.waiter corr ≠ some (kind, tx))
    (hget : ∀ call, T.sending tx = some call → call.pc ≠ .get) :
    (T.setOneshot (some tx) o).Inv corr? id? none where
  registered := h.registered
  pending corr kind tx' call hw hs hne := by
    obtain ⟨hwait, hrest⟩ := h.pending corr kind tx' call hw hs hne
    refine ⟨(if_neg fun heq => ?_).trans hwait, hrest⟩
    obtain rfl := Option.some.inj heq
    exact hfree corr kind hw
  recorded := h.recorded
  awaiting t call hs ha hwait _ := by
    by_cases ht : some tx = some t
    · exact absurd ((if_pos ht).symm.trans hwait) ho
    · exact h.awaiting t call hs ha ((if_neg ht).symm.trans hwait) ht
  unanswered t call hs hpc := by
    refine (if_neg fun heq => ?_).trans (h.unanswered t call hs hpc)
    obtain rfl := Option.some.inj heq
    exact hget call hs hpc

end Inv

end Tables

end CsmProxy
