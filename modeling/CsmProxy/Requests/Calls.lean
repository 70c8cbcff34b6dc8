import CsmProxy.Requests.Streams

/-!
# The calls and their history

Which waiter a `send_and_wait_for` call of a tool has registered, and where its envelope was
queued. A call registers once, so the history determines its corr and kind (`CallsKnown`).
-/

namespace CsmProxy

open Foundations

/-! ## Where a request was before -/

theorem ToolRequest.start_ne {r : ToolRequest} {id : Option String} {w : Waiting} {pc : WaitPc}
    (h : r.start id = .wait w pc) : pc = .default ∨ ∃ id, pc = .resolve id := by
  unfold start at h
  cases hw : r.wait <;> cases id <;> rw [hw] at h <;> cases h
  · exact .inl rfl
  · exact .inr ⟨_, rfl⟩

/-- A request that is past its start was at the section before. -/
theorem Stage.Section.request_before {me k : Nat} {h h' : Host} {i : Choice} {s : Stage}
    {r : ToolRequest} {pc' : RequestPc} (hs : Stage.Section me h i h' s (.request k r pc'))
    (hpc : ∀ id, pc' ≠ r.start id) :
    ∃ pc, s = .request k r pc ∧ pc.step (channel me k) r h i = some (h', .inl pc') := by
  cases hs with
  | begins => exact absurd rfl (hpc _)
  | follows => exact absurd rfl (hpc _)
  | advances step => exact ⟨_, rfl, step⟩

/-- The call was there before the section, or its corr was drawn in it. -/
theorem RequestPc.step_sending {tx : Nat} {h h' : Host} {i : Choice} {r : ToolRequest}
    {pc : RequestPc} {w : Waiting} {call' : SendCall}
    (hs : pc.step tx r h i = some (h', .inl (.wait w (.send call')))) :
    (∃ call, pc = .wait w (.send call) ∧ call.step tx h i = some (h', call')) ∨
      ∃ id, pc = .wait w (.nextCorr id) ∧
        call' = WaitPc.callFor r.ackRequested r.payload w id h.instances.nextCorr := by
  cases pc with
  | enqueue q =>
    cases i <;> simp only [step] at hs
    case run =>
      obtain ⟨-, hout⟩ := Prod.mk.inj (Option.some.inj hs)
      cases hq : (q.step r.ackRequested r.payload h).2 <;> rw [hq] at hout <;> cases hout
    all_goals cases hs
  | wait w' pc =>
    obtain ⟨⟨g, out⟩, hpc, he⟩ := Option.map_eq_some_iff.mp hs
    obtain ⟨rfl, hout⟩ := Prod.mk.inj he
    have hsection := WaitPc.step_section hpc
    cases out with
    | inr result => cases hout
    | inl pc' =>
      cases hout
      generalize hres : (Sum.inl (.send call') : WaitPc ⊕ Except ToolError ToolReply) = res at hsection
      cases hsection with
      | @drawn id => cases hres; exact .inr ⟨id, rfl, rfl⟩
      | @send call call'' _ _ hcall =>
        simp only [WaitPc.afterSend] at hres
        split at hres <;> cases hres
        exact .inl ⟨call, rfl, hcall⟩
      | _ => cases hres

/-- A tool reads the reply that its call has returned. -/
theorem RequestPc.step_reading {tx : Nat} {h h' : Host} {i : Choice} {r : ToolRequest}
    {pc : RequestPc} {w : Waiting} {id : String} {corr : UInt64} {reply : SimToServer}
    (hs : pc.step tx r h i = some (h', .inl (.wait w (.read id corr reply)))) :
    ∃ call call', pc = .wait w (.send call) ∧ call.step tx h i = some (h', call') ∧
      call'.pc = .returned (.ok reply) ∧ call'.instanceId = id ∧ call'.msg.corr = corr := by
  cases pc with
  | enqueue q =>
    cases i <;> simp only [step] at hs
    case run =>
      obtain ⟨-, hout⟩ := Prod.mk.inj (Option.some.inj hs)
      cases hq : (q.step r.ackRequested r.payload h).2 <;> rw [hq] at hout <;> cases hout
    all_goals cases hs
  | wait w' pc =>
    obtain ⟨⟨g, out⟩, hpc, he⟩ := Option.map_eq_some_iff.mp hs
    obtain ⟨rfl, hout⟩ := Prod.mk.inj he
    have hsection := WaitPc.step_section hpc
    cases out with
    | inr result => cases hout
    | inl pc' =>
      cases hout
      generalize hres : (Sum.inl (.read id corr reply) : WaitPc ⊕ Except ToolError ToolReply) =
        res at hsection
      cases hsection with
      | @send call call'' _ _ hcall =>
        simp only [WaitPc.afterSend] at hres
        split at hres <;> cases hres
        rename_i hreturned
        exact ⟨call, call'', rfl, hcall, hreturned, rfl, rfl⟩
      | _ => cases hres

/-! ## What the calls have done -/

/-- The task is in a `send_and_wait_for` call of the request. -/
def Stage.calling (k : Nat) (r : ToolRequest) (w : Waiting) (call : SendCall) : Stage :=
  .request k r (.wait w (.send call))

/-- Has the call stored its waiter? -/
def SendPc.registered : SendPc → Bool
  | .get | .insertWaiter => false
  | _ => true

/-- What the history says about a call. -/
structure CallKnown (tx : Nat) (r : ToolRequest) (w : Waiting) (log : List RequestEvent)
    (call : SendCall) : Prop where
  msg : call.msg = { corr := call.msg.corr, ackRequested := r.ackRequested, payload := some r.payload }
  kind : call.kind = w.kind
  registered : ∀ corr kind, .registered tx corr kind ∈ log →
    call.pc.registered = true ∧ corr = call.msg.corr ∧ kind = call.kind
  queued : ∀ deadline, call.pc = .await deadline →
    ∃ token, .queued tx call.instanceId (some token) call.msg ∈ log

/-- What the history says about the calls of the tools. -/
structure CallsKnown (c : Config (Host × List RequestEvent) ServerTask) : Prop where
  used : ∀ tx corr kind, .registered tx corr kind ∈ c.shared.2 → usedBy c.erase tx
  call : ∀ t k r w call, (c.task t).stage = .calling k r w call →
    CallKnown (channel t k) r w c.shared.2 call

theorem noteQueued_ok (tx : Nat) {h : Host} {id : String} {msg : ServerToSim} {m : InstanceMap}
    (hs : h.instances.trySend id msg = .ok m) :
    ∃ token, h.instances.tokenOf id = some token ∧
      noteQueued tx h id msg = some (.queued tx id (some token) msg) := by
  obtain ⟨-, -, -, htoken⟩ := InstanceMap.trySend_frame hs
  obtain ⟨token, htoken⟩ := Option.isSome_iff_exists.mp htoken
  refine ⟨token, htoken, ?_⟩
  rw [noteQueued, hs, htoken]

theorem noteQueued_ne_registered {tx tx' : Nat} {h : Host} {id : String} {msg : ServerToSim}
    {corr : UInt64} {kind : WaitKind} : noteQueued tx h id msg ≠ some (.registered tx' corr kind) := by
  unfold noteQueued
  split <;> nofun

/-- Waiters are registered by the calls of the tools. -/
theorem Stage.note_registered {me tx : Nat} {h : Host} {s : Stage} {corr : UInt64} {kind : WaitKind}
    (hn : s.note me h = some (.registered tx corr kind)) :
    ∃ k r w call, s = .calling k r w call ∧ call.pc = .insertWaiter ∧ tx = channel me k ∧
      corr = call.msg.corr ∧ kind = call.kind := by
  cases hq : s.enqueuing with
  | some e =>
    obtain ⟨ackRequested, payload, pc⟩ := e
    rw [note_of_enqueuing hq] at hn
    cases pc with
    | trySend id corr' => exact absurd hn noteQueued_ne_registered
    | _ => cases hn
  | none =>
    simp only [Stage.note, hq] at hn
    obtain ⟨call, hcall, hn⟩ := Option.bind_eq_some_iff.mp hn
    have hpc : call.pc = .insertWaiter := by
      unfold SendCall.note at hn
      split at hn
      · assumption
      · exact absurd hn noteQueued_ne_registered
      · cases hn
    rw [SendCall.note, hpc] at hn
    cases hn
    cases s with
    | request k r pc =>
      cases pc with
      | enqueue q => cases hcall
      | wait w pc =>
        cases pc <;> cases hcall
        exact ⟨k, r, w, call, rfl, hpc, rfl, rfl, rfl⟩
    | _ => cases hcall

/-- An envelope is queued under the name of the task, and for the entry that has the id. -/
theorem Stage.note_queued {me tx : Nat} {h : Host} {s : Stage} {id : String} {session : Option Nat}
    {msg : ServerToSim} (hn : s.note me h = some (.queued tx id session msg)) :
    tx = s.name me ∧ session = h.instances.tokenOf id := by
  have hqueued : ∀ {tx' id' msg'}, noteQueued tx' h id' msg' = some (.queued tx id session msg) →
      tx = tx' ∧ session = h.instances.tokenOf id := by
    intro tx' id' msg' hn
    unfold noteQueued at hn
    split at hn <;> cases hn
    exact ⟨rfl, rfl⟩
  cases hq : s.enqueuing with
  | some e =>
    obtain ⟨ackRequested, payload, pc⟩ := e
    rw [note_of_enqueuing hq] at hn
    cases pc with
    | trySend id' corr => exact hqueued hn
    | _ => cases hn
  | none =>
    simp only [Stage.note, hq] at hn
    obtain ⟨call, -, hn⟩ := Option.bind_eq_some_iff.mp hn
    unfold SendCall.note at hn
    split at hn
    · cases hn
    · exact hqueued hn
    · cases hn

theorem SendCall.step_registered {me : Nat} {h h' : Host} {c c' : SendCall} {i : Choice}
    (hs : c.step me h i = some (h', c')) (hc : c.pc.registered = true ∨ c.pc = .insertWaiter) :
    c'.pc.registered = true := by
  cases step_section hs with
  | connected pc => rw [pc] at hc; rcases hc with hc | hc <;> cases hc
  | _ => rfl

theorem usedBy_channel {c : Config Host ServerTask} {me k : Nat} {r : ToolRequest} {w : Waiting}
    {call : SendCall} (hst : (c.task me).stage = .calling k r w call) : usedBy c (channel me k) := by
  rw [usedBy, channel, Nat.unpair_pair, hst]
  exact Nat.lt_succ_self _

theorem not_usedBy_channel {c : Config Host ServerTask} {me k : Nat} {r : ToolRequest}
    {pc : RequestPc} (hst : (c.task me).stage = .request k r pc) (hpc : pc.queueing.isSome = true) :
    ¬ usedBy c (channel me k) := by
  rw [usedBy, channel, Nat.unpair_pair, hst]
  change ¬ 2 * k + 2 < pc.frontier k
  rw [RequestPc.frontier, if_pos hpc]
  omega

namespace CallKnown

variable {tx me : Nat} {r : ToolRequest} {w : Waiting} {log log' : List RequestEvent}
  {call call' : SendCall} {h h' : Host} {i : Choice}

/-- The history grows, and not by a registration of this call. -/
theorem mono (known : CallKnown tx r w log call) (hlog : log <:+ log')
    (hregistered : ∀ corr kind, .registered tx corr kind ∈ log' → .registered tx corr kind ∈ log) :
    CallKnown tx r w log' call where
  msg := known.msg
  kind := known.kind
  registered corr kind he := known.registered corr kind (hregistered corr kind he)
  queued deadline hpc := by
    obtain ⟨token, he⟩ := known.queued deadline hpc
    exact ⟨token, hlog.subset he⟩

/-- The call makes a section. -/
theorem step (known : CallKnown tx r w log call) (hs : call.step tx h i = some (h', call')) :
    CallKnown tx r w ((call.note tx h).toList ++ log) call' := by
  obtain ⟨hid, hmsg, hkind⟩ := SendCall.step_args hs
  refine ⟨?_, hkind.trans known.kind, fun corr kind he => ?_, fun deadline hpc => ?_⟩
  · rw [hmsg]
    exact known.msg
  · rw [hmsg, hkind]
    rcases List.mem_append.mp he with hnew | hold
    · have hnote := Option.mem_toList.mp hnew
      have hpc : call.pc = .insertWaiter := by
        rw [SendCall.note] at hnote
        split at hnote
        · assumption
        · exact absurd hnote noteQueued_ne_registered
        · cases hnote
      rw [SendCall.note, hpc] at hnote
      cases hnote
      exact ⟨SendCall.step_registered hs (.inr hpc), rfl, rfl⟩
    · obtain ⟨hpc, hargs⟩ := known.registered corr kind hold
      exact ⟨SendCall.step_registered hs (.inl hpc), hargs⟩
  · -- the envelope was queued in this section
    cases SendCall.step_section hs with
    | queued pc sent =>
      obtain ⟨token, -, hnote⟩ := noteQueued_ok tx sent
      refine ⟨token, List.mem_append_left _ (Option.mem_toList.mpr ?_)⟩
      rw [SendCall.note, pc]
      exact hnote
    | _ => cases hpc

end CallKnown

namespace CallsKnown

variable {c c' : Config (Host × List RequestEvent) ServerTask} {me : Nat} {i : Choice}

theorem of_boot {c : Config Host ServerTask} (boot : ServerBoot c) : CallsKnown (c.withLog []) where
  used _ _ _ he := by cases he
  call t k r w call hst := by
    have hfresh : (c.task t).stage = .calling k r w call := hst
    rcases (boot.fresh t).stage with ⟨u, hu, -⟩ | hb | ho | ⟨r', id, hr⟩
    · rw [hu] at hfresh; cases hfresh
    · rw [hb] at hfresh; cases hfresh
    · rw [ho] at hfresh; cases hfresh
    · rw [hr] at hfresh
      obtain ⟨-, -, hstart⟩ := Stage.request.inj hfresh
      rcases ToolRequest.start_ne hstart with he | ⟨id, he⟩ <;> cases he

theorem step (known : CallsKnown c) (hf : requestHistory.fire c me i = some c') : CallsKnown c' := by
  obtain ⟨hfire, hlog⟩ := Pool.fire_recording hf
  obtain ⟨hs, hother⟩ := fire_stage hfire
  have hlog : c'.shared.2 = ((c.task me).stage.note me c.shared.1).toList ++ c.shared.2 := hlog
  have hgrow : c.shared.2 <:+ c'.shared.2 := hlog ▸ List.suffix_append _ _
  have hnew : ∀ {tx corr kind}, .registered tx corr kind ∈ c'.shared.2 →
      .registered tx corr kind ∈ c.shared.2 ∨
        ∃ k r w call, (c.task me).stage = .calling k r w call ∧ tx = channel me k := by
    intro tx corr kind he
    rw [hlog] at he
    rcases List.mem_append.mp he with hnew | hold
    · obtain ⟨k, r, w, call, hst, -, htx, -⟩ :=
        Stage.note_registered (Option.mem_toList.mp hnew)
      exact .inr ⟨k, r, w, call, hst, htx⟩
    · exact .inl hold
  refine ⟨fun tx corr kind he => usedBy_step hfire ?_, fun t k r w call' hst => ?_⟩
  · rcases hnew he with hold | ⟨k, r, w, call, hst, rfl⟩
    · exact known.used tx corr kind hold
    · exact usedBy_channel hst
  · rcases stage_of_other hother hst with ⟨rfl, hst⟩ | ⟨hne, hst⟩
    · have hbefore : Stage.Section t c.shared.1 i c'.shared.1 (c.task t).stage
          (c'.task t).stage := hs
      rw [hst] at hbefore
      obtain ⟨pc, hpc, hstep⟩ := hbefore.request_before fun id he => by
        rcases ToolRequest.start_ne he.symm with he | ⟨id, he⟩ <;> cases he
      rcases RequestPc.step_sending hstep with ⟨call, rfl, hcall⟩ | ⟨id, rfl, rfl⟩
      · have hnote : (c.task t).stage.note t c.shared.1 = call.note (channel t k) c.shared.1 := by
          rw [hpc]
          exact Stage.note_of_sending rfl
        rw [hlog, hnote]
        exact (known.call t k r w call hpc).step hcall
      · refine ⟨rfl, rfl, fun corr kind he => ?_, fun deadline hd => by cases hd⟩
        rcases hnew he with hold | ⟨k', r', w', call', hst', htx⟩
        · exact absurd (known.used _ _ _ hold) (not_usedBy_channel hpc rfl)
        · rw [hpc] at hst'
          cases hst'
    · refine (known.call t k r w call' hst).mono hgrow fun corr kind he => ?_
      rcases hnew he with hold | ⟨k', r', w', call'', -, htx⟩
      · exact hold
      · exact absurd (channel_injective htx).1 hne

end CallsKnown

end CsmProxy
