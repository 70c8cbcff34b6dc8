import CsmProxy.Requests.Outbox
import CsmProxy.Requests.Streams

/-!
# Envelopes arrive in order, and once

What a stream takes from its outbound channel is, in order and with nothing left out, what
was queued for it; what it has not taken yet is in its channel, also when its entry has been
replaced or removed (`delivered_in_order`). With corrs that are not reused, no envelope arrives
twice, on whatever stream (`delivered_once`).
-/

namespace CsmProxy

open Foundations

/-- The server with the history of its requests and of what the streams take. -/
def trafficHistory : Pool (Host × List TrafficEvent) ServerTask Choice := server.recording noteTraffic

/-- The history of the outbound channels. -/
def channelLog (log : List TrafficEvent) : List (ChannelEvent Nat ServerToSim) :=
  log.filterMap TrafficEvent.channelEvent

/-- The envelopes queued on the stream with the token, in order. -/
def queuedOn (token : Nat) (log : List TrafficEvent) : List ServerToSim := puts token (channelLog log)

/-- The envelopes that the stream with the token has taken, in order. -/
def deliveredOn (token : Nat) (log : List TrafficEvent) : List ServerToSim :=
  takes token (channelLog log)

/-- No two connected streams have one token. -/
theorem token_unique {c₀ c : Config Host ServerTask} (boot : ServerBoot c₀)
    (run : server.Reach Pool.anyStep c₀ c) {id id' : String} {token : Nat}
    {q q' : List ServerToSim} (h : c.shared.instances.outbox id = some (token, q))
    (h' : c.shared.instances.outbox id' = some (token, q')) : id = id' := by
  obtain ⟨d, inv, -⟩ := server_sessions boot run
  obtain ⟨inst, hid, hinst⟩ := Option.map_eq_some_iff.mp h
  obtain ⟨inst', hid', hinst'⟩ := Option.map_eq_some_iff.mp h'
  obtain ⟨t, s, hs, howns⟩ := inv.owner id inst hid
  obtain ⟨t', s', hs', howns'⟩ := inv.owner id' inst' hid'
  have hsame : s.token = s'.token := by
    rw [← howns.token, ← howns'.token, (Prod.mk.inj hinst).1, (Prod.mk.inj hinst').1]
  obtain rfl := inv.distinct t t' s s' hs hs' howns.entered.hasToken howns'.entered.hasToken hsame
  obtain rfl := Option.some.inj (hs.symm.trans hs')
  exact howns.key.symm.trans howns'.key

/-- A step of the recording server: its section, and what it is to the channels. -/
theorem fire_traffic {c c' : Config (Host × List TrafficEvent) ServerTask} {me : Nat} {i : Choice}
    (hf : trafficHistory.fire c me i = some c') :
    Stage.Section me c.shared.1 i c'.shared.1 (c.task me).stage (c'.task me).stage ∧
      OutboxStep (c.task me).stage c.shared.1.instances c'.shared.1.instances
        (channelEvent me c.shared.1 (c.task me) i) ∧
      channelLog c'.shared.2 =
        (channelEvent me c.shared.1 (c.task me) i).toList ++ channelLog c.shared.2 ∧
      ∀ t, t ≠ me → c'.task t = c.task t := by
  obtain ⟨hfire, hlog⟩ := Pool.fire_recording hf
  obtain ⟨hstep, hother⟩ := fire_serverTask hfire
  refine ⟨(fire_stage hfire).1, ServerTask.step_outbox hstep, ?_, hother⟩
  rw [hlog, channelLog, List.filterMap_append]
  refine congrArg (· ++ channelLog c.shared.2) ?_
  unfold channelEvent
  cases noteTraffic me c.shared.1 (c.task me) i with
  | none => rfl
  | some e =>
    simp only [Option.toList_some, List.filterMap_cons, List.filterMap_nil, Option.bind_some]
    cases e.channelEvent <;> rfl

/-- A stream with a token is entered by its next step. -/
theorem Session.step_entered {h h' : Host} {s s' : Session} {i : Choice} (htoken : s.HasToken)
    (hs : s.step h i = some (h', s')) : s'.Entered := by
  by_cases hentered : s.Entered
  · exact ((Session.step_identity hs).entered hentered).1
  · obtain ⟨dialler, register, token, received, pc⟩ := s
    cases pc with
    | first | refused | allocToken => exact htoken.elim
    | insert => cases i <;> cases hs; trivial
    | _ => exact absurd trivial hentered

/-- A stream that is entered had its token before the step. -/
theorem Session.hasToken_of_step {h h' : Host} {s s' : Session} {i : Choice} (hentered : s'.Entered)
    (hs : s.step h i = some (h', s')) : s.HasToken := by
  obtain ⟨dialler, register, token, received, pc⟩ := s
  cases step_section hs with
  | @accept item hpc hdial =>
    cases item with
    | message msg =>
      simp only [Session.accept] at hentered
      repeat' split at hentered
      all_goals exact hentered.elim
    | error err => exact hentered.elim
    | closed => exact hentered.elim
  | allocToken hpc => exact hentered.elim
  | insert hpc | closed hpc | failed hpc | replaced hpc | heartbeat hpc | leave hpc | read hpc
  | owned hpc | push hpc | removeGoodbye hpc | remove hpc =>
    obtain rfl : pc = _ := hpc
    trivial

/-- A stream that is about to insert its entry opens its channel. -/
theorem Session.step_holds {h h' : Host} {s s' : Session} {i : Choice} (htoken : s.HasToken)
    (hnew : ¬ s.Entered) (hs : s.step h i = some (h', s')) : h'.instances.Holds s.token [] := by
  obtain ⟨dialler, register, token, received, pc⟩ := s
  cases pc with
  | first | refused | allocToken => exact htoken.elim
  | insert =>
    cases i <;> cases hs
    exact .inl ⟨register.instanceId, by rw [InstanceMap.outbox_insertInstance, Function.update_self]⟩
  | _ => exact absurd trivial hnew

/-- The history agrees with the channels. -/
structure Delivering (c : Config (Host × List TrafficEvent) ServerTask) : Prop where
  fifo : Fifo (channelLog c.shared.2) c.shared.1.instances.Holds
  silent : ∀ p s, (c.task p).stage = .task (.session s) → s.HasToken → ¬ s.Entered →
    queuedOn s.token c.shared.2 = []
  unissued : ∀ token, c.shared.1.instances.nextToken ≤ token → queuedOn token c.shared.2 = []
  /-- A detached channel is nobody's entry, and its stream has been connected. -/
  closed : ∀ token q id q', c.shared.1.instances.detached.lookup token = some q →
    c.shared.1.instances.outbox id ≠ some (token, q')
  issued : ∀ token q, c.shared.1.instances.detached.lookup token = some q →
    token < c.shared.1.instances.nextToken
  left : ∀ token q p s, c.shared.1.instances.detached.lookup token = some q →
    (c.task p).stage = .task (.session s) → s.HasToken → s.token = token → s.Entered
  held : ∀ p s, (c.task p).stage = .task (.session s) → s.Entered →
    ∃ q, c.shared.1.instances.Holds s.token q

namespace Delivering

theorem of_boot {c : Config Host ServerTask} (boot : ServerBoot c) :
    Delivering (c.withLog []) := by
  obtain ⟨default, config, now, hshared⟩ := boot.shared
  have hnone : ∀ id, c.shared.instances.outbox id = none := by
    intro id
    rw [hshared]
    rfl
  have hdetached : ∀ token q, ¬ c.shared.instances.detached.lookup token = some q := by
    intro token q hq
    rw [hshared] at hq
    exact absurd ((HashMap.lookup_empty token).symm.trans hq) (by simp)
  refine ⟨.initial fun token q => ?_, fun _ _ _ _ _ => rfl, fun _ _ => rfl,
    fun token q _ _ hq => absurd hq (hdetached token q), fun token q hq => absurd hq (hdetached token q),
    fun token q _ _ hq => absurd hq (hdetached token q), fun p s hs hentered => ?_⟩
  · rintro (⟨id, hid⟩ | hleft)
    · exact absurd ((hnone id).symm.trans hid) (by simp)
    · exact hdetached token q hleft
  · have hfirst := ((boot.fresh p).session hs).1
    rw [Session.Entered, hfirst] at hentered
    exact hentered.elim

/-- An envelope is put on the channel of a connected stream. -/
theorem queuedOn_step {event : Option (ChannelEvent Nat ServerToSim)} {s : Stage}
    {m m' : InstanceMap} (hs : OutboxStep s m m' event) (token : Nat)
    (log : List (ChannelEvent Nat ServerToSim)) :
    puts token (event.toList ++ log) = puts token log ∨ ∃ id q, m.outbox id = some (token, q) := by
  cases hs with
  | same | take | drain | enter | leave => exact .inl rfl
  | @put id token' q msg entry next =>
    by_cases htoken : token' = token
    · subst htoken
      exact .inr ⟨id, q, entry⟩
    · exact .inl (puts_put_of_ne htoken msg log)

/-- The streams of the server, as one section of it finds them. -/
structure Streaming (c : Config (Host × List TrafficEvent) ServerTask) : Prop where
  known : StreamsKnown c.erase
  unique : ∀ {id id' : String} {token : Nat} {q q' : List ServerToSim},
    c.shared.1.instances.outbox id = some (token, q) →
    c.shared.1.instances.outbox id' = some (token, q') → id = id'

variable {c c' : Config (Host × List TrafficEvent) ServerTask} {me : Nat} {i : Choice}
  {event : Option (ChannelEvent Nat ServerToSim)}

/-- An entry with a token is the entry of the stream that has it. -/
theorem Streaming.entered (streams : Streaming c) {p : Nat} {s : Session} {id : String}
    {q : List ServerToSim} (hp : (c.task p).stage = .task (.session s)) (htoken : s.HasToken)
    (hid : c.shared.1.instances.outbox id = some (s.token, q)) : s.Entered := by
  obtain ⟨inst, hinst, hsame⟩ := Option.map_eq_some_iff.mp hid
  exact (streams.known.owns p s id inst hp htoken hinst (Prod.mk.inj hsame).1).entered

theorem Streaming.fresh (streams : Streaming c) {id : String} {token : Nat} {q : List ServerToSim}
    (hid : c.shared.1.instances.outbox id = some (token, q)) :
    token < c.shared.1.instances.nextToken := by
  obtain ⟨inst, hinst, hsame⟩ := Option.map_eq_some_iff.mp hid
  exact (Prod.mk.inj hsame).1 ▸ streams.known.entry_fresh id inst hinst

/-- The channel of a stream that is about to connect does not exist yet. -/
theorem not_holds (inv : Delivering c) (streams : Streaming c) {p : Nat} {s : Session}
    (hp : (c.task p).stage = .task (.session s)) (htoken : s.HasToken) (hnew : ¬ s.Entered)
    (q : List ServerToSim) : ¬ c.shared.1.instances.Holds s.token q := by
  rintro (⟨id, hid⟩ | hleft)
  · exact hnew (streams.entered hp htoken hid)
  · exact hnew (inv.left s.token q p s hleft hp htoken rfl)

/-- A channel that a stream holds was handed out. -/
theorem holds_issued (inv : Delivering c) (streams : Streaming c) {token : Nat}
    {q : List ServerToSim} (h : c.shared.1.instances.Holds token q) :
    token < c.shared.1.instances.nextToken := by
  rcases h with ⟨id, hid⟩ | hleft
  · exact streams.fresh hid
  · exact inv.issued token q hleft

theorem step_fifo (inv : Delivering c) (streams : Streaming c)
    (hout : OutboxStep (c.task me).stage c.shared.1.instances c'.shared.1.instances event) :
    Fifo (event.toList ++ channelLog c.shared.2) c'.shared.1.instances.Holds := by
  cases hout with
  | same same =>
    refine inv.fifo.change fun token q hq => .inl ?_
    rwa [InstanceMap.Holds, same.outbox, same.detached] at hq
  | @put id token q msg entry next detached =>
    refine inv.fifo.put msg (.inl ⟨id, entry⟩) fun token' q' hq' => ?_
    rcases hq' with ⟨id', hid'⟩ | hleft
    · rw [next, Function.update_apply] at hid'
      split at hid'
      · cases hid'
        exact .inl ⟨rfl, rfl⟩
      · rename_i hne
        refine .inr ⟨?_, .inl ⟨id', hid'⟩⟩
        rintro rfl
        exact hne (streams.unique hid' entry)
    · rw [detached] at hleft
      refine .inr ⟨?_, .inr hleft⟩
      rintro rfl
      exact inv.closed _ _ id q hleft entry
  | @take id token q msg entry next detached =>
    refine inv.fifo.take (.inl ⟨id, entry⟩) fun token' q' hq' => ?_
    rcases hq' with ⟨id', hid'⟩ | hleft
    · rw [next, Function.update_apply] at hid'
      split at hid'
      · cases hid'
        exact .inl ⟨rfl, rfl⟩
      · rename_i hne
        refine .inr ⟨?_, .inl ⟨id', hid'⟩⟩
        rintro rfl
        exact hne (streams.unique hid' entry)
    · rw [detached] at hleft
      refine .inr ⟨?_, .inr hleft⟩
      rintro rfl
      exact inv.closed _ _ id _ hleft entry
  | @drain token q msg left same detached =>
    refine inv.fifo.take (.inr left) fun token' q' hq' => ?_
    rcases hq' with ⟨id', hid'⟩ | hleft
    · rw [same] at hid'
      refine .inr ⟨?_, .inl ⟨id', hid'⟩⟩
      rintro rfl
      exact inv.closed _ _ id' q' left hid'
    · rw [detached, HashMap.lookup_insert_ite] at hleft
      split at hleft
      · rename_i htoken
        exact .inl ⟨htoken, (Option.some.inj hleft).symm⟩
      · rename_i hne
        exact .inr ⟨hne, .inr hleft⟩
  | @enter sn handler pc next detached =>
    refine inv.fifo.change fun token q hq => ?_
    rcases InstanceMap.of_holds_release next detached hq with hold | hnew
    · exact .inl hold
    · cases hnew
      refine .inr ⟨rfl, inv.silent me sn handler ?_ ?_⟩
      · rw [Session.HasToken, pc]; trivial
      · rw [Session.Entered, pc]; exact fun h => h
  | @leave id next detached =>
    refine inv.fifo.change fun token q hq => .inl ?_
    rcases InstanceMap.of_holds_release next detached hq with hold | hnew
    · exact hold
    · cases hnew

/-- The entry that another one has taken the place of is nobody's. -/
theorem released_closed (inv : Delivering c) (streams : Streaming c) {token : Nat}
    {q q' : List ServerToSim} {id id' : String}
    (hq : (c.shared.1.instances.release id).lookup token = some q) (hne : id' ≠ id) :
    c.shared.1.instances.outbox id' ≠ some (token, q') := by
  intro hid'
  rcases InstanceMap.of_lookup_release hq with hid | hleft
  · exact hne (streams.unique hid' hid)
  · exact inv.closed token q id' q' hleft hid'

theorem step_closed (inv : Delivering c) (streams : Streaming c)
    (hout : OutboxStep (c.task me).stage c.shared.1.instances c'.shared.1.instances event)
    {token : Nat} {q q' : List ServerToSim} {id : String}
    (hq : c'.shared.1.instances.detached.lookup token = some q) :
    c'.shared.1.instances.outbox id ≠ some (token, q') := by
  intro hid
  cases hout with
  | same same =>
    rw [same.detached] at hq
    rw [same.outbox] at hid
    exact inv.closed token q id q' hq hid
  | @put id' token' q₀ msg entry next detached | @take id' token' q₀ msg entry next detached =>
    rw [detached] at hq
    rw [next, Function.update_apply] at hid
    split at hid
    · cases hid
      exact inv.closed _ q id' _ hq entry
    · exact inv.closed token q id q' hq hid
  | @drain token' q₀ msg left same detached =>
    rw [same] at hid
    rw [detached, HashMap.lookup_insert_ite] at hq
    split at hq
    · rename_i htoken
      subst htoken
      exact inv.closed token _ id q' left hid
    · exact inv.closed token q id q' hq hid
  | @enter sn handler pc next detached =>
    rw [detached] at hq
    rw [next, Function.update_apply] at hid
    split at hid
    · -- the new entry is the first with its token
      cases hid
      have hnone := inv.not_holds streams handler (by rw [Session.HasToken, pc]; trivial)
        (by rw [Session.Entered, pc]; exact fun h => h) q
      rcases InstanceMap.of_lookup_release hq with hid | hleft
      · exact hnone (.inl ⟨_, hid⟩)
      · exact hnone (.inr hleft)
    · rename_i hne
      exact inv.released_closed streams hq hne hid
  | @leave id' next detached =>
    rw [detached] at hq
    rw [next, Function.update_apply] at hid
    split at hid
    · cases hid
    · rename_i hne
      exact inv.released_closed streams hq hne hid

theorem step (inv : Delivering c) (streams : Streaming c)
    (hf : trafficHistory.fire c me i = some c') : Delivering c' := by
  obtain ⟨hsection, hout, hevents, hother⟩ := fire_traffic hf
  have hqueued : ∀ token, queuedOn token c'.shared.2 = queuedOn token c.shared.2 ∨
      ∃ id q, c.shared.1.instances.outbox id = some (token, q) := by
    intro token
    rw [queuedOn, hevents]
    exact queuedOn_step hout token _
  have hunissued : ∀ token, c.shared.1.instances.nextToken ≤ token →
      queuedOn token c'.shared.2 = [] := by
    intro token htoken
    rcases hqueued token with hsame | ⟨id, q, hid⟩
    · exact hsame.trans (inv.unissued token htoken)
    · exact absurd htoken (Nat.not_le_of_lt (streams.fresh hid))
  -- the handler that has made the step, if it is one
  have hmine : ∀ s, (c'.task me).stage = .task (.session s) → ∃ s₀,
      (c.task me).stage = .task (.session s₀) ∧ s₀.step c.shared.1 i = some (c'.shared.1, s) := by
    intro s hs
    rw [hs] at hsection
    exact hsection.session_before
  have hissued : ∀ token q, c'.shared.1.instances.detached.lookup token = some q →
      token < c.shared.1.instances.nextToken := by
    intro token q hq
    obtain ⟨q₀, hold⟩ := hout.of_detached hq
    exact inv.holds_issued streams hold
  refine ⟨?_, fun p s hp htoken hnew => ?_, fun token htoken => ?_, fun token q id q' hq => ?_,
    fun token q hq => ?_, fun token q p s hq hp htoken he => ?_, fun p s hp hentered => ?_⟩
  · rw [hevents]
    exact inv.step_fifo streams hout
  · by_cases hpm : p = me
    · -- the stream has just got its token
      subst hpm
      obtain ⟨s₀, -, hs⟩ := hmine s hp
      rcases Session.step_keeps hs with ⟨htoken₀, -⟩ | ⟨-, -, hdrawn⟩
      · exact absurd (Session.step_entered htoken₀ hs) hnew
      · rw [hdrawn htoken]
        exact hunissued _ (Nat.le_refl _)
    · rw [hother p hpm] at hp
      rcases hqueued s.token with hsame | ⟨id, q, hid⟩
      · exact hsame.trans (inv.silent p s hp htoken hnew)
      · exact absurd (streams.entered hp htoken hid) hnew
  · exact hunissued token (hsection.nextToken.trans htoken)
  · exact inv.step_closed streams hout hq
  · exact (hissued token q hq).trans_le hsection.nextToken
  · by_cases hpm : p = me
    · subst hpm
      obtain ⟨s₀, -, hs⟩ := hmine s hp
      rcases Session.step_keeps hs with ⟨htoken₀, -⟩ | ⟨-, -, hdrawn⟩
      · exact Session.step_entered htoken₀ hs
      · exact absurd (hissued token q hq) (by rw [← he, hdrawn htoken]; exact lt_irrefl _)
    · rw [hother p hpm] at hp
      obtain ⟨q₀, hold⟩ := hout.of_detached hq
      subst he
      exact not_not.mp fun hnew => inv.not_holds streams hp htoken hnew q₀ hold
  · by_cases hpm : p = me
    · subst hpm
      obtain ⟨s₀, hs₀, hs⟩ := hmine s hp
      have htoken₀ := Session.hasToken_of_step hentered hs
      rcases Session.step_keeps hs with ⟨-, hkeeps⟩ | ⟨hno, -, -⟩
      · rw [hkeeps.token]
        by_cases hentered₀ : s₀.Entered
        · obtain ⟨q, hold⟩ := inv.held p s₀ hs₀ hentered₀
          exact hout.holds hold
        · exact ⟨[], Session.step_holds htoken₀ hentered₀ hs⟩
      · exact absurd htoken₀ hno
    · rw [hother p hpm] at hp
      obtain ⟨q, hold⟩ := inv.held p s hp hentered
      exact hout.holds hold

theorem of_reach {c₀ : Config Host ServerTask} (boot : ServerBoot c₀)
    (run : trafficHistory.Reach Pool.anyStep (c₀.withLog []) c) : Delivering c := by
  induction run with
  | refl => exact of_boot boot
  | tail run _ fire ih =>
    exact ih.step ⟨streams_known boot run.erase, token_unique boot run.erase⟩ fire

end Delivering

/-- A stream under the id `a`, a batch of two keys, and a second stream. -/
def twoKeysTakeover : Config Host ServerTask :=
  serveWith [.task externalStream,
    .batch (.start (some "a") {} [{ kind := "key", name := "up" }, { kind := "key", name := "power" }]),
    .task externalStream]

theorem serverBoot_twoKeysTakeover : ServerBoot twoKeysTakeover := by
  refine serverBoot_serveWith fun t ht => ?_
  simp only [List.mem_cons, List.not_mem_nil, or_false] at ht
  rcases ht with rfl | rfl | rfl
  · rfl
  · exact ⟨some "a", rfl⟩
  · rfl

/-- Both requests of the batch are queued. The stream takes the first, the second stream takes
the id over, and the first stream takes what is left in its channel. -/
def takeOver : List (Nat × Choice) :=
  answerTwice ++ [(3, .recv "a"), (2, registerAs "a"), (2, .run), (2, .run), (3, .drain 1)]

/-- The requests of a history. -/
def TrafficEvent.asRequest : TrafficEvent → Option RequestEvent
  | .request e => some e
  | .delivered .. => none

theorem noteRequest_eq (me : Nat) (h : Host) (t : ServerTask) (i : Choice) :
    noteRequest me h t i = (noteTraffic me h t i).bind TrafficEvent.asRequest := by
  unfold noteRequest noteTraffic
  cases t.stage.note me h with
  | some e => rfl
  | none => cases delivery h t i <;> rfl

/-- What is queued on a stream is queued by a request. -/
theorem mem_queuedOn {token : Nat} {msg : ServerToSim} {log : List TrafficEvent}
    (h : msg ∈ queuedOn token log) :
    ∃ tx id, .queued tx id (some token) msg ∈ log.filterMap TrafficEvent.asRequest := by
  obtain ⟨e, he, hput⟩ := List.mem_filterMap.mp (mem_puts h)
  cases e with
  | delivered token' msg' => cases hput
  | request e =>
    cases e with
    | registered tx corr kind => cases hput
    | queued tx id session msg' =>
      cases session with
      | none => cases hput
      | some token' =>
        cases hput
        exact ⟨tx, id, List.mem_filterMap.mpr ⟨_, he, rfl⟩⟩

theorem queuedOn_nodup {log : List TrafficEvent}
    (h : (queuedCorrs (log.filterMap TrafficEvent.asRequest)).Nodup) (token : Nat) :
    ((queuedOn token log).map ServerToSim.corr).Nodup := by
  induction log with
  | nil => exact List.nodup_nil
  | cons e log ih =>
    cases e with
    | delivered token' msg => exact ih h
    | request e =>
      cases e with
      | registered tx corr kind => exact ih h
      | queued tx id session msg =>
        obtain ⟨hnew, hold⟩ := List.nodup_cons.mp h
        cases session with
        | none => exact ih hold
        | some token' =>
          by_cases htoken : token' = token
          · subst htoken
            rw [show queuedOn token' (.request (.queued tx id (some token') msg) :: log) =
              queuedOn token' log ++ [msg] from puts_put_self ..]
            rw [List.map_append, List.map_singleton]
            refine List.nodup_append.mpr ⟨ih hold, List.nodup_singleton _, ?_⟩
            intro corr hcorr corr' hcorr'
            obtain ⟨msg', hmsg', rfl⟩ := List.mem_map.mp hcorr
            obtain ⟨tx', id', he⟩ := mem_queuedOn hmsg'
            rw [List.mem_singleton.mp hcorr']
            rintro hsame
            exact hnew (hsame ▸ mem_queuedCorrs he)
          · rw [show queuedOn token (.request (.queued tx id (some token') msg) :: log) =
              queuedOn token log from puts_put_of_ne htoken ..]
            exact ih hold

/-- As long as the counter of corrs has not come round, no corr arrives twice: not on one
stream, and not on two. -/
theorem delivered_once {c₀ : Config Host ServerTask}
    {c : Config (Host × List TrafficEvent) ServerTask} (boot : ServerBoot c₀)
    (run : trafficHistory.Reach Unwrapped (c₀.withLog []) c) :
    (∀ token, ((deliveredOn token c.shared.2).map ServerToSim.corr).Nodup) ∧
      ∀ token token' msg msg', msg ∈ deliveredOn token c.shared.2 →
        msg' ∈ deliveredOn token' c.shared.2 → msg.corr = msg'.corr → token = token' := by
  have hguard : ∀ (c : Config (Host × List TrafficEvent) ServerTask) me i,
      Unwrapped c me i → Unwrapped (c.retell TrafficEvent.asRequest) me i :=
    fun _ _ _ guard => guard
  have hrun := run.retell noteRequest_eq hguard
  obtain ⟨drawn, hdrawn⟩ := CorrsDrawn.of_reach boot hrun
  have hunique := hdrawn.queuedCorrs.1
  have horder := (Delivering.of_reach boot (run.mono fun _ _ _ _ => trivial)).fifo.order
  refine ⟨fun token => ?_, fun token token' msg msg' hmsg hmsg' hcorr => ?_⟩
  · exact (queuedOn_nodup hunique token).sublist ((horder token).sublist.map _)
  · obtain ⟨tx, id, he⟩ := mem_queuedOn ((horder token).subset hmsg)
    obtain ⟨tx', id', he'⟩ := mem_queuedOn ((horder token').subset hmsg')
    exact Option.some.inj (queued_unique hunique he he' hcorr)

theorem delivered_once_takeOver :
    ∃ c, trafficHistory.Reach Unwrapped (twoKeysTakeover.withLog []) c ∧
      (deliveredOn 1 c.shared.2).map ServerToSim.corr = [1, 2] ∧
      (∀ token, ((deliveredOn token c.shared.2).map ServerToSim.corr).Nodup) ∧
      ∀ token token' msg msg', msg ∈ deliveredOn token c.shared.2 →
        msg' ∈ deliveredOn token' c.shared.2 → msg.corr = msg'.corr → token = token' := by
  obtain ⟨c, run, htaken⟩ := trafficHistory.exists_reach Unwrapped (twoKeysTakeover.withLog [])
    takeOver (fun c => (deliveredOn 1 c.shared.2).map ServerToSim.corr = [1, 2]) (by decide +kernel)
  exact ⟨c, run, htaken, delivered_once serverBoot_twoKeysTakeover run⟩

end CsmProxy
