import CsmProxy.Mcp.ObserveOnce

/-!
# The loop of a waiting observe call

`observe_wait_json` drains, reads the latest heartbeat, tests the until-conditions, reads
the clock, and either answers or sleeps and starts again. `ObserveCall.follow` runs the
sections of one call against any sequence of hosts: section `n` finds the host `see n`, so
whatever the other tasks do in between is some sequence.

Beside the call runs a history of its turns. `Follows` is what holds of the call and its
history at every moment, `Follows.advance` the step lemma.
-/

namespace CsmProxy

open Foundations

/-! ## The conditions -/

namespace ObserveSpec

/-- A condition is set. An empty text is none. -/
def Effective (spec : ObserveSpec) : Prop :=
  (∃ text, spec.untilLog = some text ∧ text ≠ "") ∨ (∃ least, spec.untilGenerationGt = some least) ∨
    (∃ name, spec.untilActivity = some name ∧ name ≠ "") ∨
    ∃ page, spec.untilProgressPage = some page

/-- One of the conditions that are set holds of the events and the heartbeat. A least
generation of zero stands for `current`. -/
inductive Met (spec : ObserveSpec) (current : Option UInt64) (events : List SimToServer)
    (ui : HeartbeatUi) : Prop
  | log {text : String} {event : SimToServer} (isSet : spec.untilLog = some text)
      (nonempty : text ≠ "") (drained : event ∈ events) (occurs : text.toList <:+: logText event)
  | generation {least value : UInt64} (isSet : spec.untilGenerationGt = some least)
      (read : ui.generation = some value)
      (exceeds : (if least = 0 then current.getD 0 else least) < value)
  | activity {name : String} (isSet : spec.untilActivity = some name) (nonempty : name ≠ "")
      (read : ui.activity = name)
  | entering {name : String} {event : SimToServer} (isSet : spec.untilActivity = some name)
      (nonempty : name ≠ "") (drained : event ∈ events)
      (occurs : ("Entering activity: " ++ name).toList <:+: logText event)
  | page {page : Int32} (isSet : spec.untilProgressPage = some page) (read : ui.readerPage = page)
  | saved {page : Int32} {event : SimToServer} (isSet : spec.untilProgressPage = some page)
      (drained : event ∈ events) (occurs : "Progress saved:".toList <:+: logText event)
      (number : taggedI32 (logText event) "page=".toList = some page)

theorem Met.effective {spec : ObserveSpec} {current : Option UInt64} {events : List SimToServer}
    {ui : HeartbeatUi} (h : spec.Met current events ui) : spec.Effective := by
  cases h with
  | log isSet nonempty => exact .inl ⟨_, isSet, nonempty⟩
  | generation isSet => exact .inr (.inl ⟨_, isSet⟩)
  | activity isSet nonempty | entering isSet nonempty =>
    exact .inr (.inr (.inl ⟨_, isSet, nonempty⟩))
  | page isSet | saved isSet => exact .inr (.inr (.inr ⟨_, isSet⟩))

theorem waiting_iff (spec : ObserveSpec) : spec.waiting = true ↔ spec.Effective := by
  have htext : ∀ text : Option String,
      (text.filter fun t => !t.isEmpty).isSome = true ↔ ∃ t, text = some t ∧ t ≠ "" := by
    intro text
    cases text <;> simp [Option.isSome_filter]
  unfold waiting Effective effectiveLog effectiveActivity
  rw [Bool.or_eq_true, Bool.or_eq_true, Bool.or_eq_true, htext, htext, Option.isSome_iff_exists,
    Option.isSome_iff_exists, or_assoc, or_assoc]

end ObserveSpec

theorem strContains_iff {text needle : List Char} :
    strContains text needle = true ↔ needle <:+: text := decide_eq_true_iff

theorem any_filter_nonempty {text : Option String} {p : String → Bool} :
    (text.filter fun t => !t.isEmpty).any p = true ↔ ∃ t, text = some t ∧ t ≠ "" ∧ p t = true := by
  cases text with
  | none => simp
  | some t => by_cases ht : t = "" <;> simp [Option.filter_some, ht]

namespace ObserveCall

/-- The floor of the generation is the least value, or the current one. -/
theorem generationFloor_eq (m : InstanceMap) (id : String) (spec : ObserveSpec) :
    generationFloor m id spec = spec.untilGenerationGt.map fun least =>
      if least = 0 then (heartbeatUi m id).generation.getD 0 else least := by
  unfold generationFloor
  split
  · rename_i heq
    rw [heq]
    rfl
  · rename_i hne
    cases hg : spec.untilGenerationGt with
    | none => rfl
    | some least =>
      have hpos : least ≠ 0 := fun h => hne (by rw [hg, h])
      rw [Option.map_some, if_neg hpos]

/-- What `observe_until_matched` computes for a call that waits, when the floor was set
while `current` was the generation. -/
theorem untilMatched_iff_met {c : ObserveCall} {spec : ObserveSpec} {current : Option UInt64}
    (hfloor : c.floor = spec.untilGenerationGt.map fun least =>
      if least = 0 then current.getD 0 else least) (hwait : spec.waiting = true)
    (ui : HeartbeatUi) : c.untilMatched spec ui = true ↔ spec.Met current c.events ui := by
  have hset : (spec.effectiveLog.isSome || c.floor.isSome || spec.effectiveActivity.isSome ||
      spec.untilProgressPage.isSome) = true := by
    rw [hfloor, Option.isSome_map]
    exact hwait
  unfold untilMatched observeUntilMatched
  rw [hset]
  simp only [Bool.not_true, Bool.false_or, Bool.or_eq_true]
  constructor
  · rintro (((hlog | hgen) | hact) | hpage)
    · obtain ⟨text, hset, hne, hany⟩ := any_filter_nonempty.mp hlog
      obtain ⟨event, hmem, hocc⟩ := List.any_eq_true.mp hany
      exact .log hset hne hmem (strContains_iff.mp hocc)
    · rw [hfloor, Option.any_map] at hgen
      obtain ⟨least, hset, hany⟩ := (Option.any_eq_true ..).mp hgen
      obtain ⟨value, hread, hgt⟩ := (Option.any_eq_true ..).mp hany
      exact .generation hset hread (of_decide_eq_true hgt)
    · obtain ⟨name, hset, hne, hany⟩ := any_filter_nonempty.mp hact
      rcases Bool.or_eq_true_iff.mp hany with hread | hany
      · exact .activity hset hne (of_decide_eq_true hread)
      · obtain ⟨event, hmem, hocc⟩ := List.any_eq_true.mp hany
        exact .entering hset hne hmem (strContains_iff.mp hocc)
    · obtain ⟨page, hset, hany⟩ := (Option.any_eq_true ..).mp hpage
      rcases Bool.or_eq_true_iff.mp hany with hread | hany
      · exact .page hset (of_decide_eq_true hread)
      · obtain ⟨event, hmem, hocc⟩ := List.any_eq_true.mp hany
        obtain ⟨hocc, hnumber⟩ := Bool.and_eq_true_iff.mp hocc
        exact .saved hset hmem (strContains_iff.mp hocc) (of_decide_eq_true hnumber)
  · intro hmet
    cases hmet with
    | log hset hne hmem hocc =>
      refine .inl (.inl (.inl (any_filter_nonempty.mpr ⟨_, hset, hne, ?_⟩)))
      exact List.any_eq_true.mpr ⟨_, hmem, strContains_iff.mpr hocc⟩
    | generation hset hread hgt =>
      refine .inl (.inl (.inr ?_))
      rw [hfloor, Option.any_map, hset, hread]
      exact decide_eq_true hgt
    | activity hset hne hread =>
      refine .inl (.inr (any_filter_nonempty.mpr ⟨_, hset, hne, ?_⟩))
      exact Bool.or_eq_true_iff.mpr (.inl (decide_eq_true hread))
    | entering hset hne hmem hocc =>
      refine .inl (.inr (any_filter_nonempty.mpr ⟨_, hset, hne, ?_⟩))
      exact Bool.or_eq_true_iff.mpr
        (.inr (List.any_eq_true.mpr ⟨_, hmem, strContains_iff.mpr hocc⟩))
    | page hset hread =>
      refine .inr ((Option.any_eq_true ..).mpr ⟨_, hset, ?_⟩)
      exact Bool.or_eq_true_iff.mpr (.inl (decide_eq_true hread))
    | saved hset hmem hocc hnumber =>
      refine .inr ((Option.any_eq_true ..).mpr ⟨_, hset, Bool.or_eq_true_iff.mpr (.inr ?_)⟩)
      refine List.any_eq_true.mpr ⟨_, hmem, ?_⟩
      exact Bool.and_eq_true_iff.mpr ⟨strContains_iff.mpr hocc, decide_eq_true hnumber⟩

/-- The conditions of a call can be tested. -/
instance (spec : ObserveSpec) (current : Option UInt64) (events : List SimToServer)
    (ui : HeartbeatUi) : Decidable (spec.Met current events ui) :=
  let c : ObserveCall :=
    { spec := some spec
      pc := .check
      events := events
      floor := spec.untilGenerationGt.map fun least => if least = 0 then current.getD 0 else least }
  decidable_of_iff (spec.waiting = true ∧ c.untilMatched spec ui = true)
    ⟨fun h => (untilMatched_iff_met rfl h.1 ui).mp h.2,
      fun h => ⟨spec.waiting_iff.mpr h.effective,
        (untilMatched_iff_met rfl (spec.waiting_iff.mpr h.effective) ui).mpr h⟩⟩

theorem untilMatched_iff {c : ObserveCall} {spec : ObserveSpec} {m : InstanceMap} {id : String}
    (hfloor : c.floor = generationFloor m id spec) (hwait : spec.waiting = true)
    (ui : HeartbeatUi) :
    c.untilMatched spec ui = true ↔ spec.Met (heartbeatUi m id).generation c.events ui :=
  untilMatched_iff_met (hfloor.trans (generationFloor_eq m id spec)) hwait ui

end ObserveCall

/-! ## The history of the turns -/

/-- One turn of the loop: the events that the drain before it added, and the heartbeat and
the clock that it read. -/
structure Turn where
  drained : List SimToServer := []
  ui : HeartbeatUi := {}
  now : Nat := 0

/-- The turns so far, the newest first, and the host on which the deadline was set. -/
structure Turns where
  turns : List Turn := []
  start : Host := {}

/-- The drained events of some turns, in the order in which they were drained. -/
def eventsOf : List Turn → List SimToServer
  | [] => []
  | t :: earlier => eventsOf earlier ++ t.drained

namespace Turns

/-- Enter the section that the call `c` executes on `h`. -/
def note (r : Turns) (h : Host) (c : ObserveCall) : Turns :=
  match c.pc with
  | .readMask => { r with turns := {} :: r.turns }
  | .drain mask =>
    match (h.instances.tryRecvInbound c.id).1 with
    | some msg =>
      if InstanceMap.inboundVisible mask msg then
        { r with turns := r.turns.modifyHead fun t => { t with drained := t.drained ++ [msg] } }
      else r
    | none => r
  | .floor => { r with start := h }
  | .check =>
    { r with turns := r.turns.modifyHead fun t => { t with ui := heartbeatUi h.instances c.id } }
  | .clock _ => { r with turns := r.turns.modifyHead fun t => { t with now := h.now } }
  | _ => r

/-- The generation that was current when the deadline was set. -/
def current (r : Turns) (id : String) : Option UInt64 := (heartbeatUi r.start.instances id).generation

/-- The deadline of the request. -/
def deadline (r : Turns) (spec : ObserveSpec) : Nat :=
  r.start.now + millis (spec.timeoutMs r.start.config.observeWaitMs).toNat

end Turns

/-- The time that a call has: what it asks for, or else the process default if it waits for
something, and none if it does not. -/
theorem ObserveSpec.timeoutMs_cases (spec : ObserveSpec) (default : UInt32) :
    spec.waitMs = some (spec.timeoutMs default) ∨
      (spec.waitMs = none ∧ spec.Effective ∧ spec.timeoutMs default = default) ∨
      (spec.waitMs = none ∧ ¬ spec.Effective ∧ spec.timeoutMs default = 0) := by
  rw [← spec.waiting_iff]
  unfold timeoutMs
  cases hms : spec.waitMs with
  | some ms => exact .inl rfl
  | none =>
    cases hwait : spec.waiting with
    | true => exact .inr (.inl ⟨rfl, rfl, rfl⟩)
    | false => exact .inr (.inr ⟨rfl, by decide, rfl⟩)

/-- The newest turn is the last one: the deadline has come, or a condition holds. -/
def EndsHere (spec : ObserveSpec) (current : Option UInt64) (deadline : Nat) : List Turn → Prop
  | [] => False
  | t :: earlier => deadline ≤ t.now ∨
      spec.Effective ∧ spec.Met current (eventsOf (t :: earlier)) t.ui

/-- None of the turns was the last one. -/
def WentOn (spec : ObserveSpec) (current : Option UInt64) (deadline : Nat) : List Turn → Prop
  | [] => True
  | t :: earlier => ¬ EndsHere spec current deadline (t :: earlier) ∧ WentOn spec current deadline earlier

/-- The response is right, given the turns of the call. -/
structure EndsCorrectly (spec : ObserveSpec) (id : String) (r : Turns) (reply : ObserveReply) :
    Prop where
  instanceId : reply.instanceId = id
  /-- The call ended at the first turn that could be the last, and at no other. -/
  endsHere : EndsHere spec (r.current id) (r.deadline spec) r.turns
  wentOn : WentOn spec (r.current id) (r.deadline spec) r.turns.tail
  /-- The deadline is `wait_ms` after the start; without `wait_ms` it is the process default
  after the start if a condition is set, and the start itself if none is. -/
  deadline : ∃ ms : UInt32, r.deadline spec = r.start.now + ms.toNat * 1000000 ∧
    ((spec.waitMs = some ms) ∨
      (spec.waitMs = none ∧ spec.Effective ∧ ms = r.start.config.observeWaitMs) ∨
      (spec.waitMs = none ∧ ¬ spec.Effective ∧ ms = 0))
  events : reply.events = eventsOf r.turns
  matchedPresent : reply.matched.isSome = true ↔ spec.Effective
  timedOutPresent : reply.timedOut.isSome = true ↔ spec.Effective
  exactlyOne : spec.Effective → (reply.matched = some true ∧ reply.timedOut = some false) ∨
    (reply.matched = some false ∧ reply.timedOut = some true)
  matched : reply.matched = some true ↔ spec.Effective ∧
    ∃ t earlier, r.turns = t :: earlier ∧ spec.Met (r.current id) reply.events t.ui

/-! ## The call and its history -/

namespace ObserveCall

/-- Task `me` is scheduled on the host `h`: it executes a section if it can. -/
def advance (me : Nat) (h : Host) (s : ObserveCall × Turns) : ObserveCall × Turns :=
  (((s.1.step me h .run).map Prod.snd).getD s.1, s.2.note h s.1)

/-- The call of task `me` after `n` turns of the scheduler. -/
def follow (me : Nat) (see : Nat → Host) (c : ObserveCall) : Nat → ObserveCall × Turns
  | 0 => (c, {})
  | n + 1 => advance me (see n) (follow me see c n)

/-- Where the call is, in terms of its turns. -/
def Stage (spec : ObserveSpec) (id : String) (c : ObserveCall) (r : Turns) : Prop :=
  match c.pc with
  | .default => c.polling = false ∧ r.turns = []
  | .resolve target => target = id ∧ (c.polling = false → r.turns = []) ∧
      WentOn spec (r.current id) (r.deadline spec) r.turns
  | .readMask => c.id = id ∧ (c.polling = false → r.turns = []) ∧
      WentOn spec (r.current id) (r.deadline spec) r.turns
  | .drain _ => c.id = id ∧ (c.polling = false → r.turns.tail = []) ∧ r.turns ≠ [] ∧
      WentOn spec (r.current id) (r.deadline spec) r.turns.tail
  | .floor => c.polling = false ∧ c.id = id ∧ r.turns ≠ [] ∧ r.turns.tail = []
  | .check => c.polling = true ∧ r.turns ≠ [] ∧
      WentOn spec (r.current id) (r.deadline spec) r.turns.tail
  | .clock matched => c.polling = true ∧ ∃ t earlier, r.turns = t :: earlier ∧
      WentOn spec (r.current id) (r.deadline spec) earlier ∧ matched = c.untilMatched spec t.ui
  | .reply waiting matched => c.polling = true ∧ waiting = spec.waiting ∧
      ∃ t earlier, r.turns = t :: earlier ∧
        WentOn spec (r.current id) (r.deadline spec) earlier ∧
        EndsHere spec (r.current id) (r.deadline spec) (t :: earlier) ∧
        matched = c.untilMatched spec t.ui
  | .sleep _ => c.polling = true ∧ WentOn spec (r.current id) (r.deadline spec) r.turns
  | .returned (.ok reply) => EndsCorrectly spec id r reply
  | .returned (.error _) => True

/-- What holds of a call and its history at every moment. -/
structure Follows (spec : ObserveSpec) (id : String) (c : ObserveCall) (r : Turns) : Prop where
  spec_eq : c.spec = some spec
  events : c.events = eventsOf r.turns
  polled : c.polling = true → c.id = id ∧ c.floor = generationFloor r.start.instances id spec ∧
    c.deadline = r.deadline spec
  stage : c.Stage spec id r

end ObserveCall

/-- The entry of `id`, if there is one, is stored under its own id. -/
def OwnEntry (id : String) (h : Host) : Prop :=
  ∀ inst, h.instances.inner.lookup id = some inst → inst.register.instanceId = id

theorem OwnEntry.resolve {id : String} {h : Host} (ho : OwnEntry id h) {snap : InstanceSnapshot}
    (hr : h.instances.resolve id = .ok snap) : snap.register.instanceId = id := by
  unfold InstanceMap.resolve InstanceMap.get at hr
  split at hr
  · cases hr
  · cases hid : h.instances.inner.lookup id with
    | none =>
      rw [hid] at hr
      cases hr
    | some inst =>
      rw [hid] at hr
      cases hr
      exact ho inst hid

theorem eventsOf_append {t : Turn} {earlier : List Turn} {msgs : List SimToServer} :
    eventsOf ({ t with drained := t.drained ++ msgs } :: earlier) =
      eventsOf (t :: earlier) ++ msgs := by
  rw [eventsOf, eventsOf, List.append_assoc]

namespace ObserveCall

variable {spec : ObserveSpec} {id : String} {me : Nat} {h : Host} {c : ObserveCall} {r : Turns}

/-- Both exit tests of the loop: the turn that has read the clock is the last one. -/
theorem exit_iff {t : Turn} {earlier : List Turn} {matched : Bool}
    (hfloor : c.floor = generationFloor r.start.instances id spec)
    (hdeadline : c.deadline = r.deadline spec) (hevents : c.events = eventsOf (t :: earlier))
    (hmatched : matched = c.untilMatched spec t.ui) :
    ((spec.waiting && (matched || decide (c.deadline ≤ t.now))) ||
        (!spec.waiting && decide (c.deadline ≤ t.now))) = true ↔
      EndsHere spec (r.current id) (r.deadline spec) (t :: earlier) := by
  unfold EndsHere
  rw [← spec.waiting_iff, hdeadline]
  cases hwait : spec.waiting with
  | false => simp
  | true =>
    have hmet := untilMatched_iff hfloor hwait t.ui
    rw [hevents, ← hmatched] at hmet
    change _ ↔ _ ∨ _ ∧ spec.Met (heartbeatUi r.start.instances id).generation _ t.ui
    rw [← hmet]
    simp [or_comm]

/-- The response of the last turn. -/
theorem endsCorrectly_of_stops {t : Turn} {earlier : List Turn} {matched : Bool} {ui : HeartbeatUi}
    (hturns : r.turns = t :: earlier)
    (hfloor : c.floor = generationFloor r.start.instances id spec)
    (hevents : c.events = eventsOf r.turns) (hmatched : matched = c.untilMatched spec t.ui)
    (hwent : WentOn spec (r.current id) (r.deadline spec) earlier)
    (hstops : EndsHere spec (r.current id) (r.deadline spec) (t :: earlier)) :
    EndsCorrectly spec id r {
      instanceId := id
      events := c.events
      ui := ui
      matched := if spec.waiting then some matched else none
      timedOut := if spec.waiting then some (!matched) else none } := by
  have hpresent : ∀ b : Bool, (if spec.waiting = true then some b else none).isSome = true ↔
      spec.Effective := by
    intro b
    rw [← spec.waiting_iff]
    cases spec.waiting <;> simp
  refine ⟨rfl, ?_, ?_, ?_, hevents, hpresent _, hpresent _, ?_, ?_⟩
  · rw [hturns]
    exact hstops
  · rw [hturns]
    exact hwent
  · exact ⟨_, rfl, spec.timeoutMs_cases r.start.config.observeWaitMs⟩
  · intro heff
    rw [← spec.waiting_iff] at heff
    cases matched <;> simp [heff]
  · rw [← spec.waiting_iff]
    cases hwait : spec.waiting with
    | false => simp
    | true =>
      have hmet := untilMatched_iff hfloor hwait t.ui
      rw [← hmatched] at hmet
      simp [hmet, hturns, Turns.current]

/-- A pop adds its envelope to the open turn, if the mask lets it through. -/
theorem Follows.advance_drain (hf : Follows spec id c r) {mask : List String}
    (hpc : c.pc = .drain mask) :
    Follows spec id (advance me h (c, r)).1 (advance me h (c, r)).2 := by
  obtain ⟨cspec, pc, cid, polling, events, floor, deadline⟩ := c
  obtain ⟨turns, start⟩ := r
  obtain ⟨hspec, hevents, hpolled, hstage⟩ := hf
  obtain rfl : cspec = some spec := hspec
  obtain rfl : events = eventsOf turns := hevents
  obtain rfl : pc = .drain mask := hpc
  obtain ⟨hid, hnil, hne, hwent⟩ := hstage
  obtain ⟨t, earlier, rfl⟩ := List.exists_cons_of_ne_nil hne
  cases hrecv : h.instances.tryRecvInbound cid with
  | mk popped instances =>
    cases popped with
    | none =>
      have hstep : step me h ⟨some spec, .drain mask, cid, polling, eventsOf (t :: earlier), floor,
            deadline⟩ .run =
          some ({ h with instances := instances }, ⟨some spec, if polling then .check else .floor,
            cid, polling, eventsOf (t :: earlier), floor, deadline⟩) := by
        simp only [step, hrecv]
        rfl
      have hnote : Turns.note ⟨t :: earlier, start⟩ h ⟨some spec, .drain mask, cid, polling,
          eventsOf (t :: earlier), floor, deadline⟩ = ⟨t :: earlier, start⟩ := by
        simp only [Turns.note, hrecv]
      rw [ObserveCall.advance, hstep, hnote]
      cases polling with
      | true => exact ⟨rfl, rfl, hpolled, rfl, hne, hwent⟩
      | false => exact ⟨rfl, rfl, hpolled, rfl, hid, hne, hnil rfl⟩
    | some msg =>
      have hstep : step me h ⟨some spec, .drain mask, cid, polling, eventsOf (t :: earlier), floor,
            deadline⟩ .run =
          some ({ h with instances := instances, pops := h.pops ++ [(me, cid, msg)] },
            ⟨some spec, .drain mask, cid, polling,
              if InstanceMap.inboundVisible mask msg then eventsOf (t :: earlier) ++ [msg]
              else eventsOf (t :: earlier), floor, deadline⟩) := by
        simp only [step, hrecv]
      rw [ObserveCall.advance, hstep]
      by_cases hvisible : InstanceMap.inboundVisible mask msg = true
      · have hnote : Turns.note ⟨t :: earlier, start⟩ h ⟨some spec, .drain mask, cid, polling,
            eventsOf (t :: earlier), floor, deadline⟩ =
            ⟨{ t with drained := t.drained ++ [msg] } :: earlier, start⟩ := by
          simp only [Turns.note, hrecv, hvisible, if_true, List.modifyHead_cons]
        rw [hnote, if_pos hvisible]
        exact ⟨rfl, eventsOf_append.symm, hpolled, hid, hnil, List.cons_ne_nil _ _, hwent⟩
      · have hnote : Turns.note ⟨t :: earlier, start⟩ h ⟨some spec, .drain mask, cid, polling,
            eventsOf (t :: earlier), floor, deadline⟩ = ⟨t :: earlier, start⟩ := by
          simp only [Turns.note, hrecv, hvisible, if_false, Bool.false_eq_true]
        rw [hnote, if_neg hvisible]
        exact ⟨rfl, rfl, hpolled, hid, hnil, hne, hwent⟩

/-- The clock decides whether the open turn is the last one. -/
theorem Follows.advance_clock (hf : Follows spec id c r) {matched : Bool}
    (hpc : c.pc = .clock matched) :
    Follows spec id (advance me h (c, r)).1 (advance me h (c, r)).2 := by
  obtain ⟨cspec, pc, cid, polling, events, floor, deadline⟩ := c
  obtain ⟨turns, start⟩ := r
  obtain ⟨hspec, hevents, hpolled, hstage⟩ := hf
  obtain rfl : cspec = some spec := hspec
  obtain rfl : events = eventsOf turns := hevents
  obtain rfl : pc = .clock matched := hpc
  obtain ⟨hpoll, t, earlier, hturns, hwent, hmatched⟩ := hstage
  obtain rfl : turns = t :: earlier := hturns
  obtain ⟨hid, hfloor, hdeadline⟩ := hpolled hpoll
  have hexit := exit_iff (t := { t with now := h.now }) hfloor hdeadline rfl hmatched
  dsimp only at hexit
  have hstep : step me h ⟨some spec, .clock matched, cid, polling, eventsOf (t :: earlier), floor,
        deadline⟩ .run =
      some (if (spec.waiting && (matched || decide (deadline ≤ h.now))) ||
          (!spec.waiting && decide (deadline ≤ h.now)) then
        (h, ⟨some spec, .reply spec.waiting matched, cid, polling, eventsOf (t :: earlier), floor,
          deadline⟩)
      else (h, ⟨some spec, .sleep (h.now + millis 25), cid, polling, eventsOf (t :: earlier), floor,
        deadline⟩)) := rfl
  rw [ObserveCall.advance, hstep]
  by_cases hstop : EndsHere spec (Turns.current ⟨t :: earlier, start⟩ id)
      (Turns.deadline ⟨t :: earlier, start⟩ spec) ({ t with now := h.now } :: earlier)
  · rw [if_pos (hexit.mpr hstop)]
    exact ⟨rfl, rfl, hpolled, hpoll, rfl, _, earlier, rfl, hwent, hstop, hmatched⟩
  · rw [if_neg (mt hexit.mp hstop)]
    exact ⟨rfl, rfl, hpolled, hpoll, hstop, hwent⟩

/-- One more section of the call. -/
theorem Follows.advance (hf : Follows spec id c r) (ho : OwnEntry id h)
    (hdefault : c.pc = .default → h.instances.defaultInstance = some id) :
    Follows spec id (advance me h (c, r)).1 (advance me h (c, r)).2 := by
  obtain ⟨cspec, pc, cid, polling, events, floor, deadline⟩ := c
  obtain ⟨turns, start⟩ := r
  obtain ⟨hspec, hevents, hpolled, hstage⟩ := hf
  obtain rfl : cspec = some spec := hspec
  obtain rfl : events = eventsOf turns := hevents
  cases pc with
  | default =>
    obtain ⟨hpoll, hnil⟩ := hstage
    obtain rfl : turns = [] := hnil
    have hstep : step me h ⟨some spec, .default, cid, polling, eventsOf [], floor, deadline⟩ .run =
        some (h, ⟨some spec, .resolve id, cid, polling, eventsOf [], floor, deadline⟩) := by
      simp only [step, hdefault rfl]
    rw [ObserveCall.advance, hstep]
    exact ⟨rfl, rfl, hpolled, rfl, fun _ => rfl, trivial⟩
  | resolve target =>
    obtain ⟨rfl, hnil, hwent⟩ := hstage
    cases hresolve : h.instances.resolve target with
    | ok snap =>
      have hown := ho.resolve hresolve
      have hstep : step me h ⟨some spec, .resolve target, cid, polling, eventsOf turns, floor,
            deadline⟩ .run =
          some (h, ⟨some spec, .readMask, target, polling, eventsOf turns, floor, deadline⟩) := by
        simp only [step, hresolve, hown]
      rw [ObserveCall.advance, hstep]
      exact ⟨rfl, rfl, fun hp => ⟨rfl, (hpolled hp).2⟩, rfl, hnil, hwent⟩
    | error err =>
      have hstep : step me h ⟨some spec, .resolve target, cid, polling, eventsOf turns, floor,
            deadline⟩ .run =
          some (h, ⟨some spec, .returned (.error (resolveError err)), cid, polling, eventsOf turns,
            floor, deadline⟩) := by
        simp only [step, hresolve]
      rw [ObserveCall.advance, hstep]
      exact ⟨rfl, rfl, hpolled, trivial⟩
  | readMask =>
    obtain ⟨hid, hnil, hwent⟩ := hstage
    refine ⟨rfl, ?_, hpolled, hid, hnil, List.cons_ne_nil _ _, hwent⟩
    exact (List.append_nil _).symm
  | drain mask => exact Follows.advance_drain ⟨rfl, rfl, hpolled, hstage⟩ rfl
  | floor =>
    obtain ⟨hpoll, hid, hne, htail⟩ := hstage
    obtain ⟨t, earlier, rfl⟩ := List.exists_cons_of_ne_nil hne
    obtain rfl : earlier = [] := htail
    obtain rfl : cid = id := hid
    exact ⟨rfl, rfl, fun _ => ⟨rfl, rfl, rfl⟩, rfl, hne, trivial⟩
  | check =>
    obtain ⟨hpoll, hne, hwent⟩ := hstage
    obtain ⟨t, earlier, rfl⟩ := List.exists_cons_of_ne_nil hne
    exact ⟨rfl, rfl, hpolled, hpoll, _, earlier, rfl, hwent, rfl⟩
  | clock matched => exact Follows.advance_clock ⟨rfl, rfl, hpolled, hstage⟩ rfl
  | reply waiting matched =>
    obtain ⟨hpoll, rfl, t, earlier, hturns, hwent, hstops, hmatched⟩ := hstage
    obtain ⟨hid, hfloor, hdeadline⟩ := hpolled hpoll
    obtain rfl : cid = id := hid
    exact ⟨rfl, rfl, hpolled, endsCorrectly_of_stops hturns hfloor rfl hmatched hwent hstops⟩
  | sleep wake =>
    obtain ⟨hpoll, hwent⟩ := hstage
    obtain ⟨hid, hrest⟩ := hpolled hpoll
    have hstep : step me h ⟨some spec, .sleep wake, cid, polling, eventsOf turns, floor,
          deadline⟩ .run =
        if wake ≤ h.now then some (h, ⟨some spec, .resolve cid, cid, polling, eventsOf turns, floor,
          deadline⟩) else none := rfl
    rw [ObserveCall.advance, hstep]
    by_cases hwake : wake ≤ h.now
    · rw [if_pos hwake]
      refine ⟨rfl, rfl, hpolled, hid, fun hno => ?_, hwent⟩
      exact absurd (hpoll.symm.trans hno) (by decide)
    · rw [if_neg hwake]
      exact ⟨rfl, rfl, hpolled, hpoll, hwent⟩
  | returned result =>
    exact ⟨rfl, rfl, hpolled, hstage⟩

/-! ## Runs of the proxy -/

theorem follow_congr {see see' : Nat → Host} {n : Nat} (hsee : ∀ k < n, see k = see' k) :
    follow me see c n = follow me see' c n := by
  induction n with
  | zero => rfl
  | succ n ih =>
    have hprev : follow me see c n = follow me see' c n := ih fun k hk => hsee k (by omega)
    rw [follow, follow, hprev, hsee n (Nat.lt_succ_self n)]

theorem step_choice {i : Choice} {h' : Host} {c' : ObserveCall}
    (hs : c.step me h i = some (h', c')) : i = .run := by
  unfold step at hs
  split at hs <;> first | rfl | cases hs

/-- In every run of the proxy a call is what `follow` makes of the hosts on which it stepped. -/
theorem exists_follow_of_reach {ok : Pool.Guard Host Task Choice} {a b : Config Host Task} {t : Nat}
    (run : proxy.Reach ok a b) (ht : a.task t = .observe c) :
    ∃ see n, b.task t = .observe (follow t see c n).1 ∧
      ∀ k < n, ∃ b', proxy.Reach ok a b' ∧ see k = b'.shared := by
  induction run with
  | refl => exact ⟨fun _ => a.shared, 0, ht, fun k hk => absurd hk (Nat.not_lt_zero k)⟩
  | @tail b b' u i run guard fire ih =>
    obtain ⟨see, n, hb, hsee⟩ := ih
    obtain ⟨hs, hother⟩ := fire_task fire
    by_cases hu : t = u
    · subst hu
      rw [hb] at hs
      obtain ⟨⟨h', c'⟩, hc, he⟩ := Option.map_eq_some_iff.mp hs
      obtain rfl := step_choice hc
      have hnow : follow t (Function.update see n b.shared) c n = follow t see c n :=
        follow_congr fun k hk => Function.update_of_ne (by omega) ..
      refine ⟨Function.update see n b.shared, n + 1, ?_, fun k hk => ?_⟩
      · rw [follow, hnow, Function.update_self, advance, hc]
        exact (Prod.mk.inj he).2.symm
      · by_cases hkn : k = n
        · rw [hkn, Function.update_self]
          exact ⟨b, run, rfl⟩
        · rw [Function.update_of_ne hkn]
          exact hsee k (by omega)
    · exact ⟨see, n, (hother t hu).trans hb, hsee⟩

end ObserveCall

end CsmProxy
