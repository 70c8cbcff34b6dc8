import CsmProxy.Mcp.ToolSections
import CsmProxy.Requests.Calls

/-!
# What the tools queue, and what they report

A tool that makes one request, `set_session_view` and `shutdown_instance` among them, queues
one envelope at most, and a batch those of its first steps, in their order and each once
(`reports_sent`). An answer names the instance and the corr of the envelope that was queued
for it, and after a failed step a batch queues nothing more.
-/

namespace CsmProxy

open Foundations

/-! ## What a task has queued -/

/-- The instance and the envelope, if the event is that task `t` queues one. -/
def RequestEvent.sentBy (t : Nat) : RequestEvent → Option (String × ServerToSim)
  | .queued tx id _ msg => if tx.unpair.1 = t then some (id, msg) else none
  | .registered .. => none

/-- The envelopes that task `t` has queued, in order, each with its instance. -/
def sentBy (t : Nat) (log : List RequestEvent) : List (String × ServerToSim) :=
  log.reverse.filterMap (RequestEvent.sentBy t)

theorem sentBy_note (t : Nat) (e : Option RequestEvent) (log : List RequestEvent) :
    sentBy t (e.toList ++ log) = sentBy t log ++ (e.bind (RequestEvent.sentBy t)).toList := by
  cases e with
  | none => exact (List.append_nil _).symm
  | some e =>
    rw [sentBy, Option.toList_some, List.singleton_append, List.reverse_cons, List.filterMap_append]
    refine congrArg (sentBy t log ++ ·) ?_
    simp only [List.filterMap_cons, List.filterMap_nil, Option.bind_some]
    cases e.sentBy t <;> rfl

theorem Stage.name_unpair (me : Nat) (s : Stage) : (s.name me).unpair.1 = me := by
  cases s <;> simp only [name, own, channel, Nat.unpair_pair]

/-- A task queues for itself. -/
theorem Stage.note_sentBy_of_ne {me t : Nat} (ht : t ≠ me) (h : Host) (s : Stage) :
    (s.note me h).bind (RequestEvent.sentBy t) = none := by
  cases hn : s.note me h with
  | none => rfl
  | some e =>
    cases e with
    | registered tx corr kind => rfl
    | queued tx id session msg =>
      obtain ⟨rfl, -⟩ := note_queued hn
      rw [Option.bind_some, RequestEvent.sentBy, name_unpair]
      exact if_neg (Ne.symm ht)

/-- What a call that queues `msg` for `id` adds. -/
theorem noteQueued_sentBy {me tx : Nat} (htx : tx.unpair.1 = me) (h : Host) (id : String)
    (msg : ServerToSim) :
    (noteQueued tx h id msg).bind (RequestEvent.sentBy me) =
      if (h.instances.trySend id msg).toOption.isSome then some (id, msg) else none := by
  unfold noteQueued
  cases h.instances.trySend id msg with
  | ok m => exact if_pos htx
  | error err => rfl

/-! ## The envelope of a request -/

/-- The envelope of the request, with its corr. -/
def ToolRequest.envelope (r : ToolRequest) (corr : UInt64) : ServerToSim where
  corr := corr
  ackRequested := r.ackRequested
  payload := some r.payload

/-- What has been queued for the request: nothing, or its envelope. -/
def ToolRequest.sends (r : ToolRequest) (sent : Option (String × UInt64)) :
    List (String × ServerToSim) :=
  (sent.map fun (id, corr) => (id, r.envelope corr)).toList

namespace ToolReply

/-- The `instanceId` of the answer. -/
def instanceId : ToolReply → String
  | .queued id _ => id
  | .painted _ id _ => id
  | .accepted id _ _ _ => id
  | .snapshot _ _ id _ => id

/-- The `corr` of the answer. -/
def corr : ToolReply → UInt64
  | .queued _ corr => corr
  | .painted _ _ corr => corr
  | .accepted _ corr _ _ => corr
  | .snapshot _ _ _ corr => corr

end ToolReply

/-- An answer that is read off a reply names the request. -/
theorem ReplyReader.read_ok {reader : ReplyReader} {m : InstanceMap} {id : String} {corr : UInt64}
    {reply : SimToServer} {value : ToolReply} (h : reader.read m id corr reply = .ok value) :
    value.instanceId = id ∧ value.corr = corr := by
  cases reader with
  | inject =>
    simp only [read, McpServer.injectReply] at h
    split at h
    · cases h
      exact ⟨rfl, rfl⟩
    · split at h <;> cases h
      exact ⟨rfl, rfl⟩
    · cases h
  | snapshot =>
    simp only [read, McpServer.snapshotReply] at h
    split at h <;> cases h
    exact ⟨rfl, rfl⟩

/-- Was the request queued before the call failed? -/
def WaitError.afterSending : WaitError → Bool
  | .timeout | .disconnected => true
  | .unknownInstance | .queueFull => false

/-- Has the call queued its request? -/
def SendPc.sent : SendPc → Bool
  | .get | .insertWaiter | .insertInstance | .trySend => false
  | .forget err | .take err | .returned (.error err) => err.afterSending
  | .await _ | .returned (.ok _) => true

/-- The instance and the corr of the envelope that the call has queued. -/
def SendCall.sent (c : SendCall) : Option (String × UInt64) :=
  if c.pc.sent then some (c.instanceId, c.msg.corr) else none

/-- The instance that the envelope is for, when the default has been looked up. -/
def EnqueuePc.target : EnqueuePc → Option String
  | .default => none
  | .resolve id | .nextCorr id | .trySend id _ => some id

namespace RequestPc

/-- The instance and the corr of the envelope that the request has queued. -/
def sent : RequestPc → Option (String × UInt64)
  | .wait _ (.send call) => call.sent
  | .wait _ (.read id corr _) => some (id, corr)
  | _ => none

/-- The instance that the request is for, when the default has been looked up. -/
def target : RequestPc → Option String
  | .enqueue pc => pc.target
  | .wait _ .default => none
  | .wait _ (.resolve id) | .wait _ (.nextCorr id) | .wait _ (.read id _ _) => some id
  | .wait _ (.send call) => some call.instanceId

end RequestPc

/-! ## One section of a request -/

/-- What `enqueue` has queued when a section ends in `out`. -/
def EnqueuePc.queued (out : EnqueuePc ⊕ Except String (String × UInt64)) : Option (String × UInt64) :=
  match out with
  | .inl _ => none
  | .inr result => result.toOption

/-- What the section of `enqueue` adds. -/
theorem EnqueuePc.step_sends {me tx : Nat} (htx : tx.unpair.1 = me) (r : ToolRequest) (h : Host)
    (pc : EnqueuePc) :
    ((pc.note tx h r.ackRequested r.payload).bind (RequestEvent.sentBy me)).toList =
      r.sends (queued (pc.step r.ackRequested r.payload h).2) := by
  have hsection := pc.step_section r.ackRequested r.payload h
  generalize (pc.step r.ackRequested r.payload h).1 = g at hsection
  generalize (pc.step r.ackRequested r.payload h).2 = out at hsection ⊢
  cases hsection with
  | queued hsent =>
    rw [EnqueuePc.note, noteQueued_sentBy htx, hsent]
    rfl
  | refused hrefusal =>
    rw [EnqueuePc.note, noteQueued_sentBy htx, hrefusal]
    rfl
  | _ => rfl

/-- The envelope is queued for the instance that `enqueue` has resolved. -/
theorem EnqueuePc.target_of_queued {r : ToolRequest} {h : Host} {pc : EnqueuePc} {id : String}
    {corr : UInt64} (hq : queued (pc.step r.ackRequested r.payload h).2 = some (id, corr)) :
    pc.target = some id := by
  have hsection := pc.step_section r.ackRequested r.payload h
  generalize (pc.step r.ackRequested r.payload h).1 = g at hsection
  generalize (pc.step r.ackRequested r.payload h).2 = out at hsection hq
  cases hsection with
  | queued =>
    cases hq
    rfl
  | _ => cases hq

/-- `enqueue` keeps to the instance it is for. -/
theorem EnqueuePc.step_target {r : ToolRequest} {h : Host} {pc pc' : EnqueuePc} {id : String}
    (hkey : h.instances.KeyedById) (htarget : pc.target = some id)
    (hs : (pc.step r.ackRequested r.payload h).2 = .inl pc') : pc'.target = some id := by
  have hsection := pc.step_section r.ackRequested r.payload h
  generalize (pc.step r.ackRequested r.payload h).1 = g at hsection
  generalize (pc.step r.ackRequested r.payload h).2 = out at hsection hs
  cases hsection with
  | default => cases htarget
  | resolved found =>
    cases hs
    obtain ⟨-, hsame⟩ := hkey.resolve found
    exact (congrArg some hsame).trans htarget
  | drawn =>
    cases hs
    exact htarget
  | _ => cases hs

/-- What the section of the call adds. -/
theorem SendCall.step_sends {me tx : Nat} {r : ToolRequest} {h h' : Host} {c c' : SendCall}
    {i : Choice} (htx : tx.unpair.1 = me) (hmsg : c.msg = r.envelope c.msg.corr)
    (hs : c.step tx h i = some (h', c')) :
    r.sends c.sent ++ ((c.note tx h).bind (RequestEvent.sentBy me)).toList = r.sends c'.sent := by
  cases step_section hs with
  | queued pc sent =>
    rw [SendCall.note, pc]
    change _ ++ ((noteQueued tx h c.instanceId c.msg).bind (RequestEvent.sentBy me)).toList = _
    rw [noteQueued_sentBy htx, sent, SendCall.sent, pc, hmsg]
    rfl
  | refused pc refusal same =>
    rw [SendCall.note, pc]
    change _ ++ ((noteQueued tx h c.instanceId c.msg).bind (RequestEvent.sentBy me)).toList = _
    rw [noteQueued_sentBy htx, refusal, SendCall.sent, pc]
    rcases same with ⟨-, rfl⟩ | ⟨-, rfl⟩ <;> rfl
  | connected pc | unknown pc | insertWaiter pc | insertInstance pc | forget pc | take pc
  | answered pc | disconnected pc | timedOut pc =>
    rw [SendCall.note, SendCall.sent, pc]
    exact List.append_nil _

/-- What one section of a request adds to what was queued for it: up to a state of the request
or up to its answer. -/
structure RequestPc.Adds (r : ToolRequest) (pc : RequestPc) (out : RequestPc ⊕ Except String ToolReply)
    (added : List (String × ServerToSim)) (sent : Option (String × UInt64)) : Prop where
  total : r.sends pc.sent ++ added = r.sends sent
  next : ∀ pc', out = .inl pc' → sent = pc'.sent
  answer : ∀ value, out = .inr (.ok value) → sent = some (value.instanceId, value.corr)
  target : ∀ id corr, sent = some (id, corr) → pc.target = some id

theorem RequestPc.Adds.still {r : ToolRequest} {pc : RequestPc}
    {out : RequestPc ⊕ Except String ToolReply} (hpc : pc.sent = none)
    (hnext : ∀ pc', out = .inl pc' → pc'.sent = none) (hanswer : ∀ value, out ≠ .inr (.ok value)) :
    pc.Adds r out [] none where
  total := by rw [hpc, List.append_nil]
  next pc' he := (hnext pc' he).symm
  answer value he := absurd he (hanswer value)
  target id corr he := by cases he

theorem RequestPc.step_adds {me k : Nat} {r : ToolRequest} {h h' : Host} {pc : RequestPc}
    {i : Choice} {out : RequestPc ⊕ Except String ToolReply}
    (hmsg : ∀ w call, pc = .wait w (.send call) → call.msg = r.envelope call.msg.corr)
    (hs : pc.step (channel me k) r h i = some (h', out)) :
    ∃ sent, pc.Adds r out
      (((Stage.request k r pc).note me h).bind (RequestEvent.sentBy me)).toList sent := by
  have htx : (channel me k).unpair.1 = me := by rw [channel, Nat.unpair_pair]
  cases pc with
  | enqueue q =>
    have hnote : (Stage.request k r (.enqueue q)).note me h =
        q.note (channel me k) h r.ackRequested r.payload := Stage.note_of_enqueuing rfl
    rw [hnote, EnqueuePc.step_sends htx]
    cases i <;> simp only [step] at hs
    case run =>
      obtain ⟨-, rfl⟩ := Prod.mk.inj (Option.some.inj hs)
      refine ⟨EnqueuePc.queued (q.step r.ackRequested r.payload h).2, rfl, fun pc' he => ?_,
        fun value he => ?_, fun id corr he => EnqueuePc.target_of_queued he⟩
      · generalize (q.step r.ackRequested r.payload h).2 = out at he ⊢
        rcases out with q' | err | queued <;> cases he
        rfl
      · generalize (q.step r.ackRequested r.payload h).2 = out at he ⊢
        rcases out with q' | err | queued <;> cases he
        rfl
    all_goals cases hs
  | wait w pc =>
    obtain ⟨⟨g, res⟩, hpc, he⟩ := Option.map_eq_some_iff.mp hs
    cases he
    cases WaitPc.step_section hpc with
    | default | resolved | drawn =>
      exact ⟨none, .still rfl (fun pc' he => by cases he; rfl) (fun value he => by cases he)⟩
    | noDefault | unresolved =>
      exact ⟨none, .still rfl (fun pc' he => by cases he) (fun value he => by cases he)⟩
    | @send call call' _ _ hcall =>
      have hadds := SendCall.step_sends htx (hmsg w call rfl) hcall
      obtain ⟨hid, -, -⟩ := SendCall.step_args hcall
      have hnote : (Stage.request k r (.wait w (.send call))).note me h =
          call.note (channel me k) h := Stage.note_of_sending rfl
      rw [hnote]
      refine ⟨call'.sent, hadds, fun pc' he => ?_, fun value he => ?_, fun id corr he => ?_⟩
      · unfold WaitPc.afterSend at he
        split at he <;> cases he
        · rename_i hreturned
          rw [SendCall.sent, hreturned]
          rfl
        · rfl
      · unfold WaitPc.afterSend at he
        split at he <;> cases he
      · unfold SendCall.sent at he
        split at he <;> cases he
        exact congrArg some hid.symm
    | @read id corr reply =>
      refine ⟨some (id, corr), List.append_nil _, fun pc' he => ?_, fun value he => ?_,
        fun id' corr' he => ?_⟩
      · cases he
      · have hread : w.reader.read h.instances id corr reply = .ok value := by
          cases hr : w.reader.read h.instances id corr reply <;> rw [hr] at he <;> cases he
          rfl
        obtain ⟨rfl, rfl⟩ := ReplyReader.read_ok hread
        rfl
      · cases he
        rfl

/-- A request keeps to the instance it is for. -/
theorem RequestPc.step_target {tx : Nat} {r : ToolRequest} {h h' : Host} {pc pc' : RequestPc}
    {i : Choice} {id : String} (hkey : h.instances.KeyedById) (htarget : pc.target = some id)
    (hs : pc.step tx r h i = some (h', .inl pc')) : pc'.target = some id := by
  cases pc with
  | enqueue q =>
    cases i <;> simp only [step] at hs
    case run =>
      obtain ⟨-, hout⟩ := Prod.mk.inj (Option.some.inj hs)
      have hnext : (q.step r.ackRequested r.payload h).2.map RequestPc.enqueue
          (fun result => result.map fun queued => ToolReply.queued queued.1 queued.2) = .inl pc' := hout
      cases hq : (q.step r.ackRequested r.payload h).2 with
      | inl q' =>
        rw [hq] at hnext
        cases hnext
        exact EnqueuePc.step_target hkey htarget hq
      | inr result =>
        rw [hq] at hnext
        cases hnext
    all_goals cases hs
  | wait w pc =>
    obtain ⟨⟨g, res⟩, hpc, he⟩ := Option.map_eq_some_iff.mp hs
    obtain ⟨-, hout⟩ := Prod.mk.inj he
    cases WaitPc.step_section hpc with
    | default => cases htarget
    | resolved found =>
      cases hout
      obtain ⟨-, hsame⟩ := hkey.resolve found
      exact (congrArg some hsame).trans htarget
    | drawn =>
      cases hout
      exact htarget
    | @send call call' _ _ hcall =>
      obtain ⟨hid, -, -⟩ := SendCall.step_args hcall
      unfold WaitPc.afterSend at hout
      split at hout <;> cases hout <;> exact (congrArg some hid).trans htarget
    | _ => cases hout

/-! ## The tools -/

/-- What a tool has queued, and what it answers. -/
def ToolTask.Sent (c : ToolTask) (sent : List (String × ServerToSim)) : Prop :=
  match c.state with
  | .inl pc => sent = c.request.sends pc.sent
  | .inr (.ok value) => sent = [(value.instanceId, c.request.envelope value.corr)]
  | .inr (.error _) => ∃ last, sent = c.request.sends last

/-- The first steps of a batch for `id`, all of which have succeeded: what is reported of them,
and what was queued. -/
inductive StepsDone (shared : SharedParams) (id : String) :
    List InjectBatchStep → List BatchEntry → List (String × ServerToSim) → Prop
  | nil : StepsDone shared id [] [] []
  | snoc {done : List InjectBatchStep} {results : List BatchEntry}
      {sent : List (String × ServerToSim)} {step : InjectBatchStep} {r : ToolRequest}
      {value : ToolReply} (before : StepsDone shared id done results sent)
      (request : step.request shared = .ok r) (target : value.instanceId = id) :
    StepsDone shared id (done ++ [step]) (results ++ [⟨done.length, .ok value⟩])
      (sent ++ [(id, r.envelope value.corr)])

/-- What a batch that answers `reply` has queued: the envelopes of the steps that it reports as
done, and then at most that of the step that failed. -/
inductive BatchSent (shared : SharedParams) (steps : List InjectBatchStep) :
    BatchReply → List (String × ServerToSim) → Prop
  | all {id : String} {results : List BatchEntry} {sent : List (String × ServerToSim)}
      (done : StepsDone shared id steps results sent) :
    BatchSent shared steps { instanceId := id, stopped := false, results } sent
  | stopped {id error : String} {done rest : List InjectBatchStep} {failed : InjectBatchStep}
      {results : List BatchEntry} {sent last : List (String × ServerToSim)}
      (before : StepsDone shared id done results sent) (split : steps = done ++ failed :: rest)
      (queued : last = [] ∨
        ∃ r corr, failed.request shared = .ok r ∧ last = [(id, r.envelope corr)]) :
    BatchSent shared steps (.stoppedAt id done.length results error) (sent ++ last)

/-- What a batch has queued, and what it answers. -/
def BatchCall.Sent (c : BatchCall) (sent : List (String × ServerToSim)) : Prop :=
  match c.pc with
  | .default | .resolve _ | .returned (.error _) => sent = []
  | .step id index results r pc rest => ∃ done first earlier,
      c.steps = done ++ first :: rest ∧ index = done.length ∧
      StepsDone c.shared id done results earlier ∧ first.request c.shared = .ok r ∧
      pc.target = some id ∧ sent = earlier ++ r.sends pc.sent
  | .returned (.ok reply) => BatchSent c.shared c.steps reply sent

/-- The request of `set_session_view_json`. -/
def ViewCall.request (c : ViewCall) : ToolRequest where
  ackRequested := false
  payload := .setSessionView (wireSessionViewPaths c.paths) c.excludeLogComponents

/-- What a `set_session_view_json` call has queued, and what it answers. -/
def ViewCall.SentView (c : ViewCall) (sent : List (String × ServerToSim)) : Prop :=
  match c.pc with
  | .default | .resolve _ => sent = []
  | .enqueue id pc => pc.target = some id ∧ sent = []
  | .setReadMask id corr | .setExclude id corr => sent = [(id, c.request.envelope corr)]
  | .returned result => sent = c.request.sends result.toOption

/-- The request of a tool that enqueues and returns. -/
def EnqueueCall.request (c : EnqueueCall) : ToolRequest where
  ackRequested := c.ackRequested
  payload := c.payload

/-- What such a tool has queued, and what it answers. -/
def EnqueueCall.Sent (c : EnqueueCall) (sent : List (String × ServerToSim)) : Prop :=
  match c.result with
  | none => sent = []
  | some result => sent = c.request.sends result.toOption

/-- The request of `shutdown_instance_json`. -/
def ShutdownCall.request : ToolRequest where
  ackRequested := false
  payload := .shutdown

/-- What a `shutdown_instance` call has queued, and what it answers when it has reaped. -/
def ShutdownCall.Sent (c : ShutdownCall) (sent : List (String × ServerToSim)) : Prop :=
  match c.pc with
  | .enqueue _ => sent = []
  | .choose queued | .reap queued _ _ | .returned queued => sent = request.sends queued.toOption

/-- What a task of the proxy has queued, and what it answers. No other task queues anything. -/
def Task.Sent : Task → List (String × ServerToSim) → Prop
  | .view c, sent => c.SentView sent
  | .enqueue c, sent => c.Sent sent
  | .shutdown c, sent => c.Sent sent
  | _, sent => sent = []

/-- What a task has queued, and what it answers. -/
def ServerTask.Sent : ServerTask → List (String × ServerToSim) → Prop
  | .task t, sent => t.Sent sent
  | .tool c, sent => c.Sent sent
  | .batch c, sent => c.Sent sent

theorem ToolRequest.start_sent (r : ToolRequest) (id : Option String) : (r.start id).sent = none := by
  unfold start
  cases r.wait <;> cases id <;> rfl

theorem ToolRequest.start_target (r : ToolRequest) (id : String) :
    (r.start (some id)).target = some id := by
  unfold start
  cases r.wait <;> rfl

/-- The batch goes on after the steps that are done. -/
theorem BatchCall.sent_enter {c : BatchCall} {id : String} {done rest : List InjectBatchStep}
    {results : List BatchEntry} {sent : List (String × ServerToSim)}
    (hsteps : c.steps = done ++ rest) (hdone : StepsDone c.shared id done results sent) :
    BatchCall.Sent { c with pc := .enter c.shared id done.length results rest } sent := by
  cases rest with
  | nil =>
    rw [List.append_nil] at hsteps
    exact .all (hsteps ▸ hdone)
  | cons first rest =>
    cases hr : first.request c.shared with
    | ok r =>
      simp only [Sent, BatchPc.enter, hr]
      refine ⟨done, first, sent, hsteps, rfl, hdone, hr, r.start_target id, ?_⟩
      rw [r.start_sent]
      exact (List.append_nil sent).symm
    | error err =>
      simp only [Sent, BatchPc.enter, hr]
      have hstopped : BatchSent c.shared c.steps (.stoppedAt id done.length results err) (sent ++ []) :=
        .stopped hdone hsteps (.inl rfl)
      rwa [List.append_nil] at hstopped

/-! ## One section of a tool -/

section

variable {me : Nat} {h h' : Host} {i : Choice} {sent : List (String × ServerToSim)}

/-- What the section of the task adds to what it has queued. -/
def Stage.adds (me : Nat) (h : Host) (s : Stage) : List (String × ServerToSim) :=
  ((s.note me h).bind (RequestEvent.sentBy me)).toList

/-- What the section adds when the task is in `enqueue`. -/
theorem Stage.adds_of_enqueuing {s : Stage} {r : ToolRequest} {pc : EnqueuePc}
    (hs : s.enqueuing = some (r.ackRequested, r.payload, pc)) :
    s.adds me h = r.sends (EnqueuePc.queued (pc.step r.ackRequested r.payload h).2) := by
  rw [adds, Stage.note_of_enqueuing hs]
  exact EnqueuePc.step_sends (name_unpair me s) r h pc

/-- A task of the proxy that is not in `enqueue` adds nothing. -/
theorem Stage.adds_eq_nil {t : Task} (hs : t.enqueuing = none) : (Stage.task t).adds me h = [] := by
  simp only [adds, Stage.note, enqueuing, hs, sending, Option.bind_none, Option.toList_none]

theorem ViewCall.step_sent {c c' : ViewCall} (hkey : h.instances.KeyedById) (known : c.SentView sent)
    (hs : c.step h i = some (h', c')) : c'.SentView (sent ++ (Stage.task (.view c)).adds me h) := by
  obtain ⟨paths, exclude, pc⟩ := c
  cases pc with
  | enqueue id pc =>
    obtain ⟨htarget, rfl⟩ := known
    rw [Stage.adds_of_enqueuing (r := request ⟨paths, exclude, .enqueue id pc⟩) rfl, List.nil_append]
    cases i <;> simp only [step] at hs
    case run =>
      split at hs <;> (rename_i hout; cases hs)
      · have hnext := congrArg Prod.snd hout
        refine ⟨EnqueuePc.step_target (r := request ⟨paths, exclude, .enqueue id pc⟩) hkey htarget
          hnext, ?_⟩
        exact congrArg (ToolRequest.sends _ ∘ EnqueuePc.queued) hnext
      · rename_i id' corr
        have hqueued := congrArg (EnqueuePc.queued ∘ Prod.snd) hout
        have hsame := EnqueuePc.target_of_queued
          (r := request ⟨paths, exclude, .enqueue id pc⟩) hqueued
        obtain rfl := Option.some.inj (hsame.symm.trans htarget)
        exact congrArg (ToolRequest.sends _) hqueued
      · exact congrArg (ToolRequest.sends _ ∘ EnqueuePc.queued ∘ Prod.snd) hout
    all_goals cases hs
  | default | resolve id =>
    rw [Stage.adds_eq_nil rfl, List.append_nil, show sent = [] from known]
    cases i <;> simp only [step] at hs
    case run => split at hs <;> cases hs <;> first | rfl | exact ⟨rfl, rfl⟩
    all_goals cases hs
  | setReadMask id corr | setExclude id corr =>
    rw [Stage.adds_eq_nil rfl, List.append_nil]
    cases i <;> cases hs
    exact known
  | returned result => cases i <;> cases hs

theorem EnqueueCall.step_sent {c c' : EnqueueCall} (known : c.Sent sent)
    (hs : c.step h i = some (h', c')) : c'.Sent (sent ++ (Stage.task (.enqueue c)).adds me h) := by
  obtain ⟨ackRequested, payload, pc, result⟩ := c
  cases result with
  | none =>
    rw [show sent = [] from known, List.nil_append,
      Stage.adds_of_enqueuing (r := request ⟨ackRequested, payload, pc, none⟩) rfl]
    cases i <;> simp only [step] at hs
    case run =>
      split at hs <;> (rename_i hout; cases hs)
      all_goals exact congrArg (ToolRequest.sends _ ∘ EnqueuePc.queued ∘ Prod.snd) hout
    all_goals cases hs
  | some result => cases i <;> cases hs

theorem ShutdownCall.step_sent {c c' : ShutdownCall} (known : c.Sent sent)
    (hs : c.step (own me) h i = some (h', c')) :
    c'.Sent (sent ++ (Stage.task (.shutdown c)).adds me h) := by
  obtain ⟨instanceId, pc⟩ := c
  cases pc with
  | enqueue pc =>
    rw [show sent = [] from known, List.nil_append, Stage.adds_of_enqueuing (r := request) rfl]
    cases i <;> simp only [step] at hs
    case run =>
      split at hs <;> (rename_i hout; cases hs)
      all_goals exact congrArg (ToolRequest.sends _ ∘ EnqueuePc.queued ∘ Prod.snd) hout
    all_goals cases hs
  | choose queued =>
    rw [Stage.adds_eq_nil rfl, List.append_nil]
    cases i <;> simp only [step] at hs
    case run => split at hs <;> (cases hs; exact known)
    all_goals cases hs
  | reap queued id pc =>
    rw [Stage.adds_eq_nil rfl, List.append_nil]
    obtain ⟨⟨g, out⟩, -, he⟩ := Option.map_eq_some_iff.mp hs
    cases he
    cases out <;> exact known
  | returned queued => cases i <;> cases hs

/-- A task of the proxy reports the envelope that it has queued. -/
theorem Task.step_sent {t t' : Task} (hkey : h.instances.KeyedById) (known : t.Sent sent)
    (hs : t.step (own me) h i = some (h', t')) : t'.Sent (sent ++ (Stage.task t).adds me h) := by
  cases t with
  | environment =>
    obtain ⟨g, -, he⟩ := Option.map_eq_some_iff.mp hs
    cases he
    rw [Stage.adds_eq_nil rfl, List.append_nil]
    exact known
  | _ =>
    obtain ⟨⟨g, c'⟩, hp, he⟩ := Option.map_eq_some_iff.mp hs
    cases he
    first
      | exact ViewCall.step_sent hkey known hp
      | exact EnqueueCall.step_sent known hp
      | exact ShutdownCall.step_sent known hp
      | (rw [Stage.adds_eq_nil rfl, List.append_nil]
         exact known)

theorem ToolTask.step_sent {c c' : ToolTask}
    (hmsg : ∀ k r w call, (ServerTask.tool c).stage = .calling k r w call →
      call.msg = r.envelope call.msg.corr)
    (known : c.Sent sent) (hs : c.step me h i = some (h', c')) :
    c'.Sent (sent ++ (ServerTask.tool c).stage.adds me h) := by
  obtain ⟨r, state⟩ := c
  cases state with
  | inr result => cases hs
  | inl pc =>
    obtain ⟨⟨g, out⟩, hpc, he⟩ := Option.map_eq_some_iff.mp hs
    cases he
    obtain ⟨last, total, next, answer, -⟩ := RequestPc.step_adds
      (fun w call he => hmsg 0 r w call (by rw [he]; rfl)) hpc
    have hsent : sent ++ (ServerTask.tool ⟨r, .inl pc⟩).stage.adds me h = r.sends last := by
      rw [show sent = r.sends pc.sent from known]
      exact total
    rw [hsent]
    rcases out with pc' | err | value
    · exact congrArg r.sends (next pc' rfl)
    · exact ⟨last, rfl⟩
    · rw [answer value rfl]
      rfl

theorem BatchCall.step_sent {c c' : BatchCall} (hkey : h.instances.KeyedById)
    (hmsg : ∀ k r w call, (ServerTask.batch c).stage = .calling k r w call →
      call.msg = r.envelope call.msg.corr)
    (known : c.Sent sent) (hs : c.step me h i = some (h', c')) :
    c'.Sent (sent ++ (ServerTask.batch c).stage.adds me h) := by
  obtain ⟨shared, steps, pc⟩ := c
  cases pc with
  | default =>
    rw [show sent = [] from known]
    cases i <;> simp only [step] at hs
    case run => split at hs <;> cases hs <;> rfl
    all_goals cases hs
  | resolve id =>
    rw [show sent = [] from known]
    cases i <;> simp only [step] at hs
    case run =>
      split at hs
      · cases hs
        exact sent_enter (c := ⟨shared, steps, .default⟩) rfl .nil
      · cases hs
        rfl
    all_goals cases hs
  | step id index results r pc rest =>
    obtain ⟨done, first, earlier, hsteps, rfl, hdone, hr, htarget, rfl⟩ := known
    obtain ⟨⟨g, out⟩, hpc, he⟩ := Option.map_eq_some_iff.mp hs
    cases he
    obtain ⟨last, total, next, answer, target⟩ := RequestPc.step_adds
      (fun w call he => hmsg done.length r w call (by rw [he]; rfl)) hpc
    have hsent : earlier ++ r.sends pc.sent ++
        (ServerTask.batch ⟨shared, steps, .step id done.length results r pc rest⟩).stage.adds me h =
          earlier ++ r.sends last := by
      rw [List.append_assoc]
      exact congrArg (earlier ++ ·) total
    rw [hsent]
    rcases out with pc' | err | value
    · exact ⟨done, first, earlier, hsteps, rfl, hdone, hr, RequestPc.step_target hkey htarget hpc,
        congrArg (fun x => earlier ++ r.sends x) (next pc' rfl)⟩
    · refine .stopped hdone hsteps ?_
      rcases last with - | ⟨id', corr⟩
      · exact .inl rfl
      · obtain rfl := Option.some.inj ((target id' corr rfl).symm.trans htarget)
        exact .inr ⟨r, corr, hr, rfl⟩
    · have hlast := answer value rfl
      obtain rfl := Option.some.inj ((target _ _ hlast).symm.trans htarget)
      have henter := sent_enter (c := ⟨shared, steps, .default⟩)
        (hsteps.trans (List.append_cons done first rest)) (hdone.snoc hr rfl)
      rw [List.length_append, List.length_singleton] at henter
      rw [hlast]
      exact henter
  | returned result => cases i <;> cases hs

theorem ServerTask.step_sent {t t' : ServerTask} (hkey : h.instances.KeyedById)
    (hmsg : ∀ k r w call, t.stage = .calling k r w call → call.msg = r.envelope call.msg.corr)
    (known : t.Sent sent) (hs : t.step me h i = some (h', t')) :
    t'.Sent (sent ++ t.stage.adds me h) := by
  cases t with
  | task t =>
    cases t with
    | send call => cases hs
    | _ =>
      obtain ⟨⟨g, u⟩, hstep, he⟩ := Option.map_eq_some_iff.mp hs
      cases he
      exact Task.step_sent hkey known hstep
  | tool c =>
    obtain ⟨⟨g, c'⟩, hstep, he⟩ := Option.map_eq_some_iff.mp hs
    cases he
    exact ToolTask.step_sent hmsg known hstep
  | batch c =>
    obtain ⟨⟨g, c'⟩, hstep, he⟩ := Option.map_eq_some_iff.mp hs
    cases he
    exact BatchCall.step_sent hkey hmsg known hstep

end

/-! ## The result -/

theorem server_keyed {c₀ c : Config Host ServerTask} (boot : ServerBoot c₀)
    (run : server.Reach Pool.anyStep c₀ c) : c.shared.instances.KeyedById :=
  fun _ _ hid => (server_entry boot run hid).1

theorem Task.Fresh.sent {t : Task} (h : t.Fresh) : t.Sent [] := by
  cases t with
  | view c =>
    obtain ⟨id, paths, exclude, rfl⟩ := h
    cases id <;> rfl
  | enqueue c =>
    obtain ⟨hresult, -⟩ := h
    simp only [Sent, EnqueueCall.Sent, hresult]
  | shutdown c =>
    obtain ⟨id, rfl⟩ := h
    rfl
  | _ => rfl

theorem ServerTask.Fresh.sent {t : ServerTask} (h : t.Fresh) : t.Sent [] := by
  cases t with
  | task t => exact Task.Fresh.sent h
  | tool c =>
    obtain ⟨r, state⟩ := c
    rcases h with ⟨id, hstate⟩ | ⟨err, hstate⟩
    · obtain rfl : state = .inl (r.start id) := hstate
      change [] = r.sends (r.start id).sent
      rw [r.start_sent]
      rfl
    · obtain rfl : state = .inr (.error err) := hstate
      exact ⟨none, rfl⟩
  | batch c =>
    obtain ⟨id, hstart⟩ := h
    rw [hstart]
    cases id <;> rfl

/-- The answers agree with what was queued, and the calls with their requests. -/
structure ReportsKnown (c : Config (Host × List RequestEvent) ServerTask) : Prop where
  calls : CallsKnown c
  sent : ∀ t, (c.task t).Sent (sentBy t c.shared.2)

theorem ReportsKnown.of_reach {c₀ : Config Host ServerTask}
    {c : Config (Host × List RequestEvent) ServerTask} (boot : ServerBoot c₀)
    (run : requestHistory.Reach Pool.anyStep (c₀.withLog []) c) : ReportsKnown c := by
  induction run with
  | refl => exact ⟨.of_boot boot, fun t => (boot.fresh t).sent⟩
  | @tail b c me i run _ fire ih =>
    refine ⟨ih.calls.step fire, fun t => ?_⟩
    obtain ⟨hfire, hlog⟩ := Pool.fire_recording fire
    obtain ⟨hstep, hother⟩ := fire_serverTask hfire
    rw [hlog, sentBy_note]
    by_cases ht : t = me
    · subst ht
      refine ServerTask.step_sent (server_keyed boot run.erase) ?_ (ih.sent t) hstep
      intro k r w call hst
      exact (ih.calls.call t k r w call hst).msg
    · have hquiet : (noteRequest me b.shared.1 (b.task me) i).bind (RequestEvent.sentBy t) = none :=
        Stage.note_sentBy_of_ne ht _ _
      rw [hquiet, Option.toList_none, List.append_nil, show c.task t = b.task t from hother t ht]
      exact ih.sent t

/-- **What is reported was sent.** In every run, a tool has queued one envelope at most, and one
that answers with a reply exactly the one that the answer names; a batch has queued, in order,
one envelope for each step it reports as done, then at most that of the step that failed. -/
theorem reports_sent {c₀ : Config Host ServerTask}
    {c : Config (Host × List RequestEvent) ServerTask} (boot : ServerBoot c₀)
    (run : requestHistory.Reach Pool.anyStep (c₀.withLog []) c) (t : Nat) :
    (c.task t).Sent (sentBy t c.shared.2) :=
  (ReportsKnown.of_reach boot run).sent t

/-- The answer to a batch that has pressed both its keys. -/
def bothPressed : BatchReply where
  instanceId := "a"
  stopped := false
  results := [⟨0, .ok (.painted {} "a" 1)⟩, ⟨1, .ok (.painted {} "a" 2)⟩]

/-- A stream, a batch of two keys, and a tool that sets the view of the same instance. -/
def keysAndView : Config Host ServerTask :=
  serveWith [.task externalStream,
    .batch (.start (some "a") {} [{ kind := "key", name := "up" }, { kind := "key", name := "power" }]),
    (ToolCall.setSessionView (some "a") ["log"] []).task]

theorem serverBoot_keysAndView : ServerBoot keysAndView := by
  refine serverBoot_serveWith fun t ht => ?_
  simp only [List.mem_cons, List.not_mem_nil, or_false] at ht
  rcases ht with rfl | rfl | rfl
  · rfl
  · exact ⟨some "a", rfl⟩
  · exact ToolCall.task_fresh _

theorem reports_sent_keysAndView :
    ∃ c call, requestHistory.Reach Pool.anyStep (keysAndView.withLog []) c ∧
      c.task 1 = .batch call ∧ call.pc = .returned (.ok bothPressed) ∧
      BatchSent call.shared call.steps bothPressed (sentBy 1 c.shared.2) ∧
      c.task 2 = .task (.view ⟨["log"], [], .returned (.ok ("a", 3))⟩) ∧
      sentBy 2 c.shared.2 =
        [("a", { corr := 3, payload := some (.setSessionView ["log", "heartbeat"] []) })] := by
  obtain ⟨c, run, hdone, hview⟩ := requestHistory.exists_reach Pool.anyStep (keysAndView.withLog [])
    (answerTwice ++ [(1, .run)] ++ List.replicate 6 (2, .run))
    (fun c => c.task 1 = .batch { (BatchCall.start (some "a") {}
      [{ kind := "key", name := "up" }, { kind := "key", name := "power" }]) with
        pc := .returned (.ok bothPressed) } ∧
      c.task 2 = .task (.view ⟨["log"], [], .returned (.ok ("a", 3))⟩))
    (by decide +kernel)
  have hbatch := reports_sent serverBoot_keysAndView run 1
  have hset := reports_sent serverBoot_keysAndView run 2
  rw [hdone] at hbatch
  rw [hview] at hset
  exact ⟨c, _, run, hdone, rfl, hbatch, hview, hset⟩

end CsmProxy
