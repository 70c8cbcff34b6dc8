import CsmProxy.Foundations.UntilError
import CsmProxy.Mcp.WaitedReply

/-!
# A batch of injects

`inject_batch_json` of `mcp.rs`. Between two steps, and while a step waits, the other tasks
do what they like with the map: `Surroundings`.

`InjectBatchStep.call` is the single tool that a step stands for, and `injectBatch_sequential`
says that the batch calls these tools one after the other until one of them fails.
-/

namespace CsmProxy

open Foundations

/-- `InjectBatchStep`, with the defaults of its fields. -/
structure InjectBatchStep where
  kind : String
  x : UInt32 := 0
  y : UInt32 := 0
  touchKind : Option UInt32 := none
  name : Option String := none
  holdMs : UInt32 := 0
  startX : UInt32 := 0
  startY : UInt32 := 0
  endX : UInt32 := 0
  endY : UInt32 := 0
  durationMs : UInt32 := 0
  wait : Option Bool := none
  waitMode : Option String := none
  space : Option String := none
  waitMs : Option UInt32 := none
deriving DecidableEq, Repr

/-- The parameters of the batch that a step may override. -/
structure SharedParams where
  wait : Bool := true
  waitMode : Option String := none
  space : Option String := none
  waitMs : Option UInt32 := none
deriving DecidableEq, Repr

/-- What the other tasks do around a step: to the map before it, and while it waits. The
oneshot channel of its waiter is `channel`. -/
structure Surroundings where
  before : InstanceMap → InstanceMap
  channel : Nat
  others : Wait

/-- An entry of `results`. -/
structure BatchEntry where
  index : Nat
  outcome : Except String ToolReply
deriving DecidableEq

/-- The body of an `inject_batch` response. -/
structure BatchReply where
  instanceId : String
  stopped : Bool
  failedIndex : Option Nat := none
  error : Option String := none
  results : List BatchEntry
deriving DecidableEq

namespace McpServer

/-- The loop body of `inject_batch_json`, up to the result of the step. -/
def injectStep (m : InstanceMap) (id : String) (shared : SharedParams) (step : InjectBatchStep)
    (tx : Nat) (others : Wait) : Except String ToolReply × InstanceMap :=
  let stepWait := step.wait.getD shared.wait
  let stepMode := step.waitMode.or shared.waitMode
  let stepSpace := step.space.or shared.space
  let stepWaitMs := step.waitMs.or shared.waitMs
  let tool (r : Except ToolError ToolReply × InstanceMap) := (r.1.mapError ToolError.text, r.2)
  if step.kind = "touch" then
    tool (injectTouch m (some id) (step.touchKind.getD 3) step.x step.y stepWait stepMode stepSpace
      stepWaitMs tx others)
  else if step.kind = "key" then
    tool (injectKey m (some id) (step.name.getD "") step.holdMs stepWait stepMode stepWaitMs tx
      others)
  else if step.kind = "home" then
    tool (injectHome m (some id) step.holdMs stepWait stepMode stepWaitMs tx others)
  else if step.kind = "swipe" then
    tool (injectSwipe m (some id) step.startX step.startY step.endX step.endY step.durationMs
      stepWait stepMode stepSpace stepWaitMs tx others)
  else (.error ("unknown inject_batch step kind: " ++ step.kind), m)

/-- The loop of `inject_batch_json` from step `index` on, with the results so far. -/
def injectSteps (id : String) (shared : SharedParams) (around : Nat → Surroundings) :
    Nat → List BatchEntry → InstanceMap → List InjectBatchStep → BatchReply × InstanceMap
  | _, results, m, [] => ({ instanceId := id, stopped := false, results }, m)
  | index, results, m, step :: rest =>
    match injectStep ((around index).before m) id shared step (around index).channel
        (around index).others with
    | (.ok value, m) => injectSteps id shared around (index + 1) (results ++ [⟨index, .ok value⟩]) m rest
    | (.error error, m) =>
      ({ instanceId := id, stopped := true, failedIndex := some index, error := some error,
         results := results ++ [⟨index, .error error⟩] }, m)

/-- `inject_batch_json` -/
def injectBatch (m : InstanceMap) (instanceId : Option String) (shared : SharedParams)
    (steps : List InjectBatchStep) (around : Nat → Surroundings) :
    Except ToolError BatchReply × InstanceMap :=
  match resolve m instanceId with
  | .error err => (.error err, m)
  | .ok snap =>
    let (reply, m) := injectSteps snap.register.instanceId shared around 0 [] m steps
    (.ok reply, m)

end McpServer

/-! ## The single tools -/

namespace InjectBatchStep

variable (id : String) (shared : SharedParams)

/-- The step with every parameter that may be overridden, from the step if it has it and from
the batch if not. -/
def effective (step : InjectBatchStep) : SharedParams where
  wait := step.wait.getD shared.wait
  waitMode := step.waitMode.or shared.waitMode
  space := step.space.or shared.space
  waitMs := step.waitMs.or shared.waitMs

/-- The single tool that the step stands for, or the error of an unknown kind. -/
def call (step : InjectBatchStep) : Except String ToolCall :=
  let p := step.effective shared
  if step.kind = "touch" then
    .ok (.injectTouch (some id) (step.touchKind.getD 3) step.x step.y p.wait p.waitMode p.space
      p.waitMs)
  else if step.kind = "key" then
    .ok (.injectKey (some id) (step.name.getD "") step.holdMs p.wait p.waitMode p.waitMs)
  else if step.kind = "home" then
    .ok (.injectHome (some id) step.holdMs p.wait p.waitMode p.waitMs)
  else if step.kind = "swipe" then
    .ok (.injectSwipe (some id) step.startX step.startY step.endX step.endY step.durationMs p.wait
      p.waitMode p.space p.waitMs)
  else .error ("unknown inject_batch step kind: " ++ step.kind)

end InjectBatchStep

/-- The call of a single tool in its surroundings, which depend on its number. A call that
cannot be made leaves the map to the others. -/
def singleCall (around : Nat → Surroundings) (m : InstanceMap) (numbered : Except String ToolCall × Nat) :
    Except String ToolReply × InstanceMap :=
  let a := around numbered.2
  match numbered.1 with
  | .ok call =>
    let r := call.run (a.before m) a.channel a.others
    (r.1.mapError ToolError.text, r.2)
  | .error error => (.error error, a.before m)

theorem McpServer.injectStep_eq (id : String) (shared : SharedParams) (step : InjectBatchStep)
    (around : Nat → Surroundings) (m : InstanceMap) (index : Nat) :
    injectStep ((around index).before m) id shared step (around index).channel
      (around index).others = singleCall around m (step.call id shared, index) := by
  unfold injectStep singleCall InjectBatchStep.call
  dsimp only
  split
  · rfl
  · split
    · rfl
    · split
      · rfl
      · split <;> rfl

/-! ## The response -/

/-- The entries for these outcomes, numbered from `index` on. -/
def entries (index : Nat) (outcomes : List (Except String ToolReply)) : List BatchEntry :=
  (outcomes.zipIdx index).map fun e => ⟨e.2, e.1⟩

/-- The index and the message of an entry that is an error. -/
def BatchEntry.failure (entry : BatchEntry) : Option (Nat × String) :=
  match entry.outcome with
  | .ok _ => none
  | .error err => some (entry.index, err)

theorem BatchEntry.failure_eq_some {entry : BatchEntry} {i : Nat} {err : String} :
    entry.failure = some (i, err) ↔ entry = ⟨i, .error err⟩ := by
  obtain ⟨index, outcome⟩ := entry
  cases outcome <;> simp [failure]

/-- The response for these outcomes, with the results of earlier steps. -/
structure BatchReports (id : String) (index : Nat) (earlier : List BatchEntry)
    (outcomes : List (Except String ToolReply)) (reply : BatchReply) : Prop where
  instanceId : reply.instanceId = id
  results : reply.results = earlier ++ entries index outcomes
  stopped : reply.stopped = !outcomes.all succeeded
  failedIndex : reply.failedIndex =
    ((entries index outcomes).getLast?.bind BatchEntry.failure).map Prod.fst
  error : reply.error = ((entries index outcomes).getLast?.bind BatchEntry.failure).map Prod.snd

theorem entries_cons (index : Nat) (outcome : Except String ToolReply)
    (rest : List (Except String ToolReply)) :
    entries index (outcome :: rest) = ⟨index, outcome⟩ :: entries (index + 1) rest := by
  rw [entries, List.zipIdx_cons, List.map_cons]
  rfl

/-- A success in front is one more result. -/
theorem BatchReports.cons_ok {id : String} {index : Nat} {earlier : List BatchEntry}
    {outcomes : List (Except String ToolReply)} {reply : BatchReply} {value : ToolReply}
    (h : BatchReports id (index + 1) (earlier ++ [⟨index, .ok value⟩]) outcomes reply) :
    BatchReports id index earlier (.ok value :: outcomes) reply := by
  have hlast : (entries index (.ok value :: outcomes)).getLast?.bind BatchEntry.failure =
      (entries (index + 1) outcomes).getLast?.bind BatchEntry.failure := by
    rw [entries_cons, List.getLast?_cons]
    cases hout : (entries (index + 1) outcomes).getLast? with
    | none => rfl
    | some entry => rfl
  refine ⟨h.instanceId, ?_, h.stopped, ?_, ?_⟩
  · rw [h.results, entries_cons, List.append_assoc, List.singleton_append]
  · rw [h.failedIndex, hlast]
  · rw [h.error, hlast]

/-- The loop calls the single tools until one fails, and reports them. -/
theorem McpServer.injectSteps_reports (id : String) (shared : SharedParams)
    (around : Nat → Surroundings) (steps : List InjectBatchStep) (index : Nat)
    (earlier : List BatchEntry) (m : InstanceMap) :
    let run := untilError (singleCall around) m
      ((steps.map fun step => step.call id shared).zipIdx index)
    let r := injectSteps id shared around index earlier m steps
    r.2 = run.2 ∧ BatchReports id index earlier run.1 r.1 := by
  induction steps generalizing index earlier m with
  | nil =>
    refine ⟨rfl, rfl, ?_, rfl, rfl, rfl⟩
    exact (List.append_nil earlier).symm
  | cons step rest ih =>
    rw [List.map_cons, List.zipIdx_cons]
    have hstep := injectStep_eq id shared step around m index
    unfold injectSteps
    rw [hstep]
    rcases hrun : singleCall around m (step.call id shared, index) with ⟨outcome, m'⟩
    cases outcome with
    | ok value =>
      rw [untilError_cons_ok hrun]
      obtain ⟨hmap, hreports⟩ := ih (index + 1) (earlier ++ [⟨index, .ok value⟩]) m'
      exact ⟨hmap, hreports.cons_ok⟩
    | error err =>
      rw [untilError_cons_error hrun]
      exact ⟨rfl, rfl, rfl, rfl, rfl, rfl⟩

/-- The outcomes decide the response. -/
theorem BatchReports.unique {id : String} {index : Nat} {earlier : List BatchEntry}
    {outcomes : List (Except String ToolReply)} {reply reply' : BatchReply}
    (h : BatchReports id index earlier outcomes reply) (h' : BatchReports id index earlier outcomes reply') :
    reply = reply' := by
  obtain ⟨instanceId, stopped, failedIndex, error, results⟩ := reply
  obtain ⟨instanceId', stopped', failedIndex', error', results'⟩ := reply'
  obtain rfl : instanceId = instanceId' := h.instanceId.trans h'.instanceId.symm
  obtain rfl : results = results' := h.results.trans h'.results.symm
  obtain rfl : stopped = stopped' := h.stopped.trans h'.stopped.symm
  obtain rfl : failedIndex = failedIndex' := h.failedIndex.trans h'.failedIndex.symm
  obtain rfl : error = error' := h.error.trans h'.error.symm
  rfl

theorem map_outcome_entries (index : Nat) (outcomes : List (Except String ToolReply)) :
    (entries index outcomes).map BatchEntry.outcome = outcomes := by
  rw [entries, List.map_map]
  exact List.zipIdx_map_fst index outcomes

theorem map_index_entries (index : Nat) (outcomes : List (Except String ToolReply)) :
    (entries index outcomes).map BatchEntry.index = List.range' index outcomes.length := by
  rw [entries, List.map_map]
  exact List.zipIdx_map_snd index outcomes

theorem length_entries (index : Nat) (outcomes : List (Except String ToolReply)) :
    (entries index outcomes).length = outcomes.length := by
  rw [entries, List.length_map, List.length_zipIdx]

/-! ## The sequential prefix -/

/-- The response to `calls` is that of the single tools, called in order until one fails. -/
structure BatchPrefix (id : String) (around : Nat → Surroundings) (m : InstanceMap)
    (calls : List (Except String ToolCall)) (reply : BatchReply) (after : InstanceMap) : Prop where
  instanceId : reply.instanceId = id
  /-- The results are those of the single tools, and the map is the one the last left. -/
  sequential : untilError (singleCall around) m calls.zipIdx =
    (reply.results.map BatchEntry.outcome, after)
  consecutive : reply.results.map BatchEntry.index = List.range reply.results.length
  lastOnly : ∀ entry ∈ reply.results.dropLast, succeeded entry.outcome = true
  stopped : reply.stopped = true ↔ ∃ entry ∈ reply.results, succeeded entry.outcome = false
  failedIndex : ∀ i, reply.failedIndex = some i ↔
    ∃ err, reply.results.getLast? = some ⟨i, .error err⟩
  error : ∀ err, reply.error = some err ↔ ∃ i, reply.results.getLast? = some ⟨i, .error err⟩
  complete : reply.stopped = false → reply.results.length = calls.length

theorem BatchReports.failure_iff {outcomes : List (Except String ToolReply)} {i : Nat} {err : String} :
    (entries 0 outcomes).getLast?.bind BatchEntry.failure = some (i, err) ↔
      (entries 0 outcomes).getLast? = some ⟨i, .error err⟩ := by
  rw [Option.bind_eq_some_iff]
  constructor
  · rintro ⟨entry, hlast, hfail⟩
    rw [hlast, BatchEntry.failure_eq_some.mp hfail]
  · intro hlast
    exact ⟨_, hlast, rfl⟩

theorem BatchReports.batchPrefix {id : String} {around : Nat → Surroundings} {m : InstanceMap}
    {calls : List (Except String ToolCall)} {reply : BatchReply}
    (h : BatchReports id 0 [] (untilError (singleCall around) m calls.zipIdx).1 reply) :
    BatchPrefix id around m calls reply (untilError (singleCall around) m calls.zipIdx).2 := by
  have hresults : reply.results = entries 0 (untilError (singleCall around) m calls.zipIdx).1 := by
    rw [h.results, List.nil_append]
  generalize hrun : untilError (singleCall around) m calls.zipIdx = run at h hresults ⊢
  obtain ⟨outcomes, after⟩ := run
  dsimp only at h hresults ⊢
  have houtcomes : reply.results.map BatchEntry.outcome = outcomes := by
    rw [hresults, map_outcome_entries]
  refine ⟨h.instanceId, ?_, ?_, ?_, ?_, ?_, ?_, ?_⟩
  · rw [hrun, houtcomes]
  · rw [hresults, map_index_entries, length_entries, List.range_eq_range']
  · intro entry hentry
    have hlast : entry.outcome ∈ outcomes.dropLast := by
      rw [← houtcomes, ← List.map_dropLast]
      exact List.mem_map_of_mem hentry
    have hfst : outcomes = (untilError (singleCall around) m calls.zipIdx).1 := by rw [hrun]
    exact succeeded_of_mem_dropLast (hfst ▸ hlast)
  · rw [h.stopped, ← houtcomes]
    simp
  · intro i
    rw [h.failedIndex, hresults, Option.map_eq_some_iff]
    constructor
    · rintro ⟨⟨index, err⟩, hlast, rfl⟩
      exact ⟨err, BatchReports.failure_iff.mp hlast⟩
    · rintro ⟨err, hlast⟩
      exact ⟨(i, err), BatchReports.failure_iff.mpr hlast, rfl⟩
  · intro err
    rw [h.error, hresults, Option.map_eq_some_iff]
    constructor
    · rintro ⟨⟨index, err⟩, hlast, rfl⟩
      exact ⟨index, BatchReports.failure_iff.mp hlast⟩
    · rintro ⟨index, hlast⟩
      exact ⟨(index, err), BatchReports.failure_iff.mpr hlast, rfl⟩
  · intro hgo
    have hall : (untilError (singleCall around) m calls.zipIdx).1.all succeeded = true := by
      rw [hrun]
      have hnot := h.stopped.symm.trans hgo
      simpa using hnot
    have hlen := length_untilError hall
    rw [hrun, List.length_zipIdx] at hlen
    rw [hresults, length_entries, ← hlen]

theorem entries_concat (outcomes : List (Except String ToolReply))
    (outcome : Except String ToolReply) :
    entries 0 (outcomes ++ [outcome]) = entries 0 outcomes ++ [⟨outcomes.length, outcome⟩] := by
  rw [entries, List.zipIdx_append, List.map_append]
  simp [entries]

theorem zipIdx_take {α : Type} (l : List α) (n k : Nat) :
    (l.take n).zipIdx k = (l.zipIdx k).take n := by
  apply List.ext_getElem?
  intro i
  rw [List.getElem?_zipIdx, List.getElem?_take, List.getElem?_take, List.getElem?_zipIdx]
  split <;> rfl

section Batch

variable {m : InstanceMap} {instanceId : Option String} {snap : InstanceSnapshot}

/-- The calls of the single tools that the steps stand for. -/
def batchCalls (id : String) (shared : SharedParams) (steps : List InjectBatchStep) :
    List (Except String ToolCall) :=
  steps.map fun step => step.call id shared

theorem McpServer.injectBatch_reports (hresolve : resolve m instanceId = .ok snap)
    (shared : SharedParams) (steps : List InjectBatchStep) (around : Nat → Surroundings) :
    let run := untilError (singleCall around) m
      (batchCalls snap.register.instanceId shared steps).zipIdx
    ∃ reply, injectBatch m instanceId shared steps around = (.ok reply, run.2) ∧
      BatchReports snap.register.instanceId 0 [] run.1 reply := by
  obtain ⟨hmap, hreports⟩ :=
    injectSteps_reports snap.register.instanceId shared around steps 0 [] m
  rw [injectBatch, hresolve]
  refine ⟨_, ?_, hreports⟩
  dsimp only
  rw [hmap]
  rfl

/-- What a batch does with more steps: nothing if it stopped, and if not, the next one is
called on the map that the batch left. -/
structure StepsInTurn (m : InstanceMap) (instanceId : Option String) (id : String)
    (shared : SharedParams) (around : Nat → Surroundings) (steps : List InjectBatchStep)
    (reply : BatchReply) (after : InstanceMap) : Prop where
  abandoned : reply.stopped = true → ∀ others,
    McpServer.injectBatch m instanceId shared (steps.take reply.results.length ++ others) around =
      (.ok reply, after)
  next : reply.stopped = false → ∀ step, ∃ reply' after' outcome,
    McpServer.injectBatch m instanceId shared (steps ++ [step]) around = (.ok reply', after') ∧
      singleCall around after (step.call id shared, steps.length) = (outcome, after') ∧
      reply'.results = reply.results ++ [⟨steps.length, outcome⟩]

theorem McpServer.injectBatch_stepsInTurn (hresolve : resolve m instanceId = .ok snap)
    {shared : SharedParams} {steps : List InjectBatchStep} {around : Nat → Surroundings}
    {reply : BatchReply} {after : InstanceMap}
    (hbatch : injectBatch m instanceId shared steps around = (.ok reply, after)) :
    StepsInTurn m instanceId snap.register.instanceId shared around steps reply after := by
  obtain ⟨reply₀, hrun, hreports⟩ := injectBatch_reports hresolve shared steps around
  obtain ⟨hreply, hafter⟩ := Prod.mk.inj (hrun.symm.trans hbatch)
  obtain rfl := Except.ok.inj hreply
  constructor
  · intro hstop others
    obtain ⟨reply', hrun', hreports'⟩ := injectBatch_reports hresolve shared
      (steps.take reply₀.results.length ++ others) around
    have hsame : untilError (singleCall around) m (batchCalls snap.register.instanceId shared
          (steps.take reply₀.results.length ++ others)).zipIdx =
        untilError (singleCall around) m
          (batchCalls snap.register.instanceId shared steps).zipIdx := by
      have hfail : (untilError (singleCall around) m
          (batchCalls snap.register.instanceId shared steps).zipIdx).1.all succeeded = false := by
        have hnot := hreports.stopped.symm.trans hstop
        simpa using hnot
      have hlen : reply₀.results.length = (untilError (singleCall around) m
          (batchCalls snap.register.instanceId shared steps).zipIdx).1.length := by
        rw [hreports.results, List.nil_append, length_entries]
      rw [batchCalls, List.map_append, List.map_take, List.zipIdx_append, zipIdx_take, hlen]
      exact untilError_take_append hfail _
    rw [hsame] at hrun' hreports'
    rw [hrun', hreports'.unique hreports, hafter]
  · intro hgo step
    obtain ⟨reply', hrun', hreports'⟩ := injectBatch_reports hresolve shared (steps ++ [step]) around
    have hall : (untilError (singleCall around) m
        (batchCalls snap.register.instanceId shared steps).zipIdx).1.all succeeded = true := by
      have hnot := hreports.stopped.symm.trans hgo
      simpa using hnot
    have hlen : (untilError (singleCall around) m
        (batchCalls snap.register.instanceId shared steps).zipIdx).1.length = steps.length := by
      rw [length_untilError hall, List.length_zipIdx, batchCalls, List.length_map]
    have hsplit : (batchCalls snap.register.instanceId shared (steps ++ [step])).zipIdx =
        (batchCalls snap.register.instanceId shared steps).zipIdx ++
          [(step.call snap.register.instanceId shared, steps.length)] := by
      rw [batchCalls, List.map_append, List.zipIdx_append, List.length_map]
      simp [batchCalls]
    rw [hsplit, untilError_append, if_pos hall, untilError_singleton, hafter] at hrun' hreports'
    refine ⟨reply', _, (singleCall around after
      (step.call snap.register.instanceId shared, steps.length)).1, hrun', rfl, ?_⟩
    rw [hreports'.results, hreports.results, List.nil_append, List.nil_append, entries_concat, hlen]

/-- **A batch is the sequential prefix of its steps.** On an instance that resolves, a batch
calls the single tools that its steps stand for, one after the other, until one fails. -/
theorem injectBatch_sequential (hresolve : McpServer.resolve m instanceId = .ok snap)
    (shared : SharedParams) (steps : List InjectBatchStep) (around : Nat → Surroundings) :
    ∃ reply after, McpServer.injectBatch m instanceId shared steps around = (.ok reply, after) ∧
      BatchPrefix snap.register.instanceId around m
        (batchCalls snap.register.instanceId shared steps) reply after ∧
      StepsInTurn m instanceId snap.register.instanceId shared around steps reply after := by
  obtain ⟨reply, hrun, hreports⟩ := McpServer.injectBatch_reports hresolve shared steps around
  exact ⟨reply, _, hrun, hreports.batchPrefix, McpServer.injectBatch_stepsInTurn hresolve hrun⟩

end Batch

/-- The first step is rejected, the second is not made. -/
def rejectFirst : Nat → Surroundings := fun index =>
  { before := id, channel := index,
    others := Arrival.wait index [.push "a" { corr := 1, payload := some (.inputAck {}) }] }

theorem injectBatch_rejected :
    (McpServer.injectBatch roomyMap (some "a") {}
      [{ kind := "home" }, { kind := "key", name := some "BACK" }] rejectFirst).1 =
      .ok { instanceId := "a", stopped := true, failedIndex := some 0,
            error := some "inject rejected", results := [⟨0, .error "inject rejected"⟩] } ∧
    ∃ reply after, McpServer.injectBatch roomyMap (some "a") {}
        [{ kind := "home" }, { kind := "key", name := some "BACK" }] rejectFirst =
        (.ok reply, after) ∧
      BatchPrefix "a" rejectFirst roomyMap (batchCalls "a" {}
        [{ kind := "home" }, { kind := "key", name := some "BACK" }]) reply after ∧
      StepsInTurn roomyMap (some "a") "a" {} rejectFirst
        [{ kind := "home" }, { kind := "key", name := some "BACK" }] reply after := by
  have hresolve : McpServer.resolve roomyMap (some "a") =
      .ok ⟨1, { instanceId := "a" }, none⟩ := rfl
  exact ⟨by decide, injectBatch_sequential hresolve {} _ rejectFirst⟩

end CsmProxy
