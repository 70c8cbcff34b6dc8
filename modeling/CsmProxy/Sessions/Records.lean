import CsmProxy.Sessions.Ownership

/-!
# Which heartbeat an entry records

The read loop records a heartbeat before it queues the envelope. So the entry of a stream
holds the last of the heartbeats that its stream has got past recording
(`RecordInv.of_reach`), and what it has got past only grows (`recorded_of_reach`).
-/

namespace CsmProxy

open Foundations

/-- The heartbeat that an envelope carries. -/
def heartbeatOf (msg : SimToServer) : Option Heartbeat :=
  match msg.payload with
  | some (.heartbeat hb) => some hb
  | _ => none

namespace Session

/-- The messages that the read loop has put in the queue, or has done with. -/
def queued (s : Session) : List SimToServer :=
  match s.current with
  | some _ => s.received.dropLast
  | none => s.received

/-- The messages that the read loop has got past recording. -/
def recorded (s : Session) : List SimToServer :=
  match s.pc with
  | .owns (.message _) => s.received.dropLast
  | .heartbeat _ _ => s.received.dropLast
  | _ => s.received

/-- The recorded heartbeats, in the order of the stream. -/
def beats (s : Session) : List Heartbeat := s.recorded.filterMap heartbeatOf

/-- What is queued has been recorded. -/
theorem queued_prefix_recorded (s : Session) : s.queued <+: s.recorded := by
  obtain ⟨dialler, register, token, received, pc⟩ := s
  cases pc with
  | owns item => cases item <;> exact List.prefix_refl _
  | push msg pc => exact List.dropLast_prefix received
  | _ => exact List.prefix_refl _

theorem recorded_prefix_received (s : Session) : s.recorded <+: s.received := by
  unfold recorded
  split
  · exact List.dropLast_prefix _
  · exact List.dropLast_prefix _
  · exact List.prefix_refl _

theorem queued_prefix_received (s : Session) : s.queued <+: s.received := by
  unfold queued
  split
  · exact List.dropLast_prefix _
  · exact List.prefix_refl _

theorem queued_of_none {s : Session} (h : s.current = none) : s.queued = s.received := by
  rw [queued, h]

/-- Only `received` and the message in hand decide what is queued. -/
theorem queued_grows {s s' : Session} (hr : s'.received = s.received)
    (hc : s'.current = s.current ∨ s'.current = none) : s.queued <+: s'.queued := by
  rcases hc with hc | hc
  · rw [queued, queued, hc, hr]
  · rw [queued_of_none hc, hr]
    exact s.queued_prefix_received

/-- **The queue only grows.** What a section leaves queued extends what was queued. -/
theorem step_queued {h h' : Host} {s s' : Session} {i : Choice}
    (hs : s.step h i = some (h', s')) : s.queued <+: s'.queued := by
  rcases step_cases hs with ⟨-, -, hq⟩ | ⟨msg, hpc, -, rfl⟩ | ⟨msg, hpc, -, rfl⟩ | ⟨hpc, -, rfl⟩ |
    ⟨hpc, -, rfl⟩ | ⟨hb, msg, hpc, -, rfl⟩ | ⟨-, -, pc, rfl, -, hcur⟩
  · exact queued_grows hq.received hq.current
  · have hcur : s.current = none := by rw [current, hpc]
    have hnext : queued { s with received := s.received ++ [msg], pc := .owns (.message msg) } =
        s.received := List.dropLast_concat
    rw [queued_of_none hcur, hnext]
  · exact queued_grows rfl (.inr (afterPush_entered s msg).2.2)
  · exact queued_grows rfl (.inr rfl)
  · exact queued_grows rfl (.inr rfl)
  · have hcur : s.current = some msg := by rw [current, hpc]
    exact queued_grows rfl (.inl hcur.symm)
  · exact queued_grows rfl (.inr hcur)

/-- What one section of a handler does to the recorded heartbeats. -/
inductive Beats (h : Host) (s : Session) (h' : Host) (s' : Session) : Prop
  | kept (other : ∀ hb msg, s.pc ≠ .heartbeat hb msg) (grows : s.recorded <+: s'.recorded)
      (beats : s'.beats = s.beats)
  | added (hb : Heartbeat) (msg : SimToServer) (pc : s.pc = .heartbeat hb msg)
      (map : h'.instances = h.instances.setHeartbeat s.register.instanceId s.token hb)
      (next : s' = { s with pc := .push msg .complete }) (grows : s.recorded <+: s'.recorded)
      (beats : s'.beats = s.beats ++ [hb])
  | left (msg : SimToServer) (pc : s.pc = .owns (.message msg))
      (lost : h.instances.owns s.register.instanceId s.token = false) (map : h' = h)
      (next : s' = { s with pc := .leaving }) (grows : s.recorded <+: s'.recorded)

theorem Beats.grows {h h' : Host} {s s' : Session} (hb : Beats h s h' s') :
    s.recorded <+: s'.recorded := by
  cases hb with
  | kept other grows beats => exact grows
  | added hb msg pc map next grows beats => exact grows
  | left msg pc lost map next grows => exact grows

/-- A section that records nothing and has nothing to record. -/
theorem Beats.of_recorded {h h' : Host} {s s' : Session}
    (other : ∀ hb msg, s.pc ≠ .heartbeat hb msg) (heq : s'.recorded = s.recorded) :
    Beats h s h' s' := by
  refine .kept other ?_ (congrArg (List.filterMap heartbeatOf) heq)
  rw [heq]

theorem accept_received (s : Session) (item : StreamItem) :
    (s.accept item).received = s.received ∧ (s.accept item).recorded = s.received := by
  cases item with
  | message msg =>
    simp only [accept]
    split
    · split <;> exact ⟨rfl, rfl⟩
    · exact ⟨rfl, rfl⟩
  | error err | closed => exact ⟨rfl, rfl⟩

/-- After the `owns` check a message without a heartbeat needs no recording. -/
theorem dispatch_beats {h : Host} {s : Session} {msg : SimToServer} {front : List SimToServer}
    (hpc : s.pc = .owns (.message msg)) (hfront : s.received = front ++ [msg]) :
    Beats h s h { s with pc := dispatch (.message msg) } := by
  have hold : s.recorded = s.received.dropLast := by rw [recorded, hpc]
  have hother : ∀ hb msg, s.pc ≠ .heartbeat hb msg := by simp [hpc]
  simp only [dispatch]
  split
  · exact .of_recorded hother hold.symm
  · rename_i hplain
    have hnone : heartbeatOf msg = none := by
      unfold heartbeatOf
      split
      · rename_i hb hp
        exact absurd hp (hplain hb)
      · rfl
    refine .kept hother (hold ▸ List.dropLast_prefix s.received) ?_
    change s.received.filterMap heartbeatOf = s.recorded.filterMap heartbeatOf
    rw [hold, hfront, List.dropLast_concat, List.filterMap_append,
      List.filterMap_cons_none hnone, List.filterMap_nil, List.append_nil]

theorem step_beats {h h' : Host} {s s' : Session} {i : Choice}
    (hs : s.step h i = some (h', s')) (hl : s.Local) : Beats h s h' s' := by
  obtain ⟨dialler, register, token, received, pc⟩ := s
  obtain ⟨-, hcurrent, hheartbeat⟩ := hl
  cases step_section hs with
  | @accept item hpc hdial =>
    obtain rfl : pc = .first := hpc
    exact .of_recorded (by simp) (accept_received _ item).2
  | allocToken hpc | insert hpc | closed hpc | failed hpc | leave hpc =>
    obtain rfl : pc = _ := hpc
    exact .of_recorded (by simp) rfl
  | read hpc =>
    obtain rfl : pc = .next := hpc
    exact .of_recorded (by simp) List.dropLast_concat
  | @owned item hpc howns =>
    obtain rfl : pc = .owns item := hpc
    cases item with
    | message msg =>
      obtain ⟨front, hfront⟩ := hcurrent msg rfl
      exact dispatch_beats rfl hfront
    | error err | closed => exact .of_recorded (by simp) rfl
  | @replaced item hpc hlost =>
    obtain rfl : pc = .owns item := hpc
    cases item with
    | message msg => exact .left msg rfl hlost rfl rfl (List.dropLast_prefix received)
    | error err | closed => exact .of_recorded (by simp) rfl
  | @heartbeat hb msg hpc =>
    obtain rfl : pc = .heartbeat hb msg := hpc
    obtain ⟨front, hfront⟩ := hcurrent msg rfl
    have hp := hheartbeat hb msg rfl
    refine .added hb msg rfl rfl rfl (List.dropLast_prefix received) ?_
    obtain rfl : received = front ++ [msg] := hfront
    have hsome : heartbeatOf msg = some hb := by rw [heartbeatOf, hp]
    change (front ++ [msg]).filterMap heartbeatOf =
      (front ++ [msg]).dropLast.filterMap heartbeatOf ++ [hb]
    rw [List.dropLast_concat, List.filterMap_append, List.filterMap_cons_some hsome,
      List.filterMap_nil]
  | @push msg sub h' out hpc hp =>
    obtain rfl : pc = .push msg sub := hpc
    refine .of_recorded (by simp) ?_
    cases out with
    | none =>
      simp only [Option.elim, afterPush]
      split <;> rfl
    | some sub => rfl
  | @removeGoodbye sub i h' out hpc hp | @remove sub i h' out hpc hp =>
    obtain rfl : pc = _ := hpc
    refine .of_recorded (by simp) ?_
    cases out <;> rfl

end Session

/-! ## The invariant -/

/-- The entry of a stream holds the last recorded heartbeat of the stream. -/
structure RecordInv (m : InstanceMap) (ss : Nat → Option Session) : Prop where
  unentered : ∀ t s, ss t = some s → ¬ s.Entered → s.received = []
  latest : ∀ t s id inst, ss t = some s → s.Entered → m.inner.lookup id = some inst →
    inst.token = s.token → inst.lastHeartbeat = s.beats.getLast?

theorem Session.beats_of_received {s : Session} (h : s.received = []) : s.beats = [] := by
  have hrec : s.recorded = [] := by
    unfold recorded
    split <;> simp [h]
  rw [beats, hrec, List.filterMap_nil]

namespace RecordInv

variable {m m' : InstanceMap} {ss : Nat → Option Session}

theorem set_entries (h : RecordInv m ss) (he : ∀ id inst', m'.inner.lookup id = some inst' →
    ∃ inst, m.inner.lookup id = some inst ∧ inst.Same inst') : RecordInv m' ss where
  unentered := h.unentered
  latest t s id inst' ht hs hl htok := by
    obtain ⟨inst, hl', hsame⟩ := he id inst' hl
    rw [hsame.lastHeartbeat]
    exact h.latest t s id inst ht hs hl' (hsame.token.symm.trans htok)

theorem same (h : RecordInv m ss) (hm : m.Same m') : RecordInv m' ss :=
  h.set_entries fun _ _ hl => hm.some_right hl

/-- A handler moves on without recording. -/
theorem advance (h : RecordInv m ss) {me : Nat} {s s' : Session} (hs : ss me = some s)
    (hu : ¬ s'.Entered → s'.received = []) (he : s'.Entered → s.Entered ∧ s'.token = s.token)
    (hb : ∀ id inst, m.inner.lookup id = some inst → inst.token = s.token →
      s'.beats = s.beats) :
    RecordInv m (Function.update ss me (some s')) where
  unentered t s₁ ht hs₁ := by
    rcases update_eq_some ht with ⟨-, rfl⟩ | ⟨-, ht⟩
    · exact hu hs₁
    · exact h.unentered t s₁ ht hs₁
  latest t s₁ id inst ht hs₁ hl htok := by
    rcases update_eq_some ht with ⟨-, rfl⟩ | ⟨-, ht⟩
    · obtain ⟨hent, htoken⟩ := he hs₁
      have htok' : inst.token = s.token := htok.trans htoken
      rw [hb id inst hl htok']
      exact h.latest me s id inst hs hent hl htok'
    · exact h.latest t s₁ id inst ht hs₁ hl htok

/-- The stream records a heartbeat. -/
theorem record (h : RecordInv m ss) (inv : SessionsInv m ss) {me : Nat} {s s' : Session}
    {hb : Heartbeat} (hs : ss me = some s) (hent : s.Entered) (hent' : s'.Entered)
    (htoken : s'.token = s.token) (hbeats : s'.beats = s.beats ++ [hb]) :
    RecordInv (m.setHeartbeat s.register.instanceId s.token hb)
      (Function.update ss me (some s')) where
  unentered t s₁ ht hs₁ := by
    rcases update_eq_some ht with ⟨-, rfl⟩ | ⟨-, ht⟩
    · exact absurd hent' hs₁
    · exact h.unentered t s₁ ht hs₁
  latest t s₁ id inst' ht hs₁ hl htok := by
    obtain ⟨inst, hl', heq⟩ := HashMap.of_lookup_modify hl
    rcases update_eq_some ht with ⟨-, rfl⟩ | ⟨hne, hold⟩
    · have hmine : inst.token = s.token := by
        rcases heq with rfl | ⟨-, rfl⟩
        · exact htok.trans htoken
        · rw [← htoken, ← htok]
          split <;> rfl
      -- the entry of the stream is under the id of its own registration
      have ho : s.Owns id inst := inv.owns_of_token hs hent.hasToken hl' hmine
      have hkey : id = s.register.instanceId := ho.key.symm
      have hl₂ : (m.setHeartbeat s.register.instanceId s.token hb).inner.lookup id =
          some { inst with lastHeartbeat := some hb } := by
        rw [InstanceMap.setHeartbeat, InstanceMap.lookup_modify, if_pos hkey, hl', Option.map_some,
          if_pos hmine]
      obtain rfl := Option.some.inj (hl₂.symm.trans hl)
      rw [hbeats, List.getLast?_concat]
    · have hother : inst.token ≠ s.token ∨ inst' = inst := by
        rcases heq with rfl | ⟨-, rfl⟩
        · exact .inr rfl
        · by_cases htk : inst.token = s.token
          · rw [if_pos htk] at htok
            have hst : s₁.token = s.token := htok.symm.trans htk
            exact absurd (inv.distinct t me s₁ s hold hs hs₁.hasToken hent.hasToken hst) hne
          · exact .inl htk
      obtain rfl : inst' = inst := by
        rcases hother with hother | rfl
        · rcases heq with rfl | ⟨-, rfl⟩
          · rfl
          · exact if_neg hother
        · rfl
      exact h.latest t s₁ id inst' hold hs₁ hl' htok

/-- A new entry is put under the token of its stream. -/
theorem insert (h : RecordInv m ss) (inv : SessionsInv m ss) {me : Nat} {s : Session}
    (hs : ss me = some s) (hpc : s.pc = .insert) {capacity : UInt64}
    {outbound : Outbound} :
    RecordInv (m.insertInstance s.token s.register capacity outbound)
      (Function.update ss me (some { s with pc := .next })) := by
  have htoken : s.HasToken := by rw [Session.HasToken, hpc]; trivial
  have hnone : ¬ s.Entered := by rw [Session.Entered, hpc]; exact id
  have hreceived : s.received = [] := h.unentered me s hs hnone
  refine ⟨fun t s₁ ht hs₁ => ?_, fun t s₁ id inst ht hs₁ hl htok => ?_⟩
  · rcases update_eq_some ht with ⟨-, rfl⟩ | ⟨-, ht⟩
    · exact hreceived
    · exact h.unentered t s₁ ht hs₁
  · change Finmap.lookup id (m.inner.insert _ _) = some inst at hl
    rw [HashMap.lookup_insert_ite] at hl
    split at hl
    · obtain rfl := Option.some.inj hl
      rcases update_eq_some ht with ⟨-, rfl⟩ | ⟨hne, hold⟩
      · have hempty : Session.beats { s with pc := .next } = [] :=
          Session.beats_of_received hreceived
        rw [hempty]
        rfl
      · exact absurd (inv.distinct t me s₁ s hold hs hs₁.hasToken htoken htok.symm) hne
    · rcases update_eq_some ht with ⟨-, rfl⟩ | ⟨-, hold⟩
      · -- no entry holds the token before it is inserted
        exact absurd (inv.owns_of_token hs htoken hl htok).entered hnone
      · exact h.latest t s₁ id inst hold hs₁ hl htok

/-- A section of a handler keeps the invariant. -/
theorem step (h : RecordInv m ss) (inv : SessionsInv m ss) {me : Nat} {g g' : Host}
    {s s' : Session} {i : Choice} (hm : g.instances = m) (hs : ss me = some s)
    (hstep : s.step g i = some (g', s')) :
    RecordInv g'.instances (Function.update ss me (some s')) := by
  subst hm
  rcases Session.step_beats hstep (inv.locals me s hs) with ⟨hother, -, hbeats⟩ |
    ⟨hb, msg, hpc, hmap, rfl, -, hbeats⟩ | ⟨msg, hpc, hlost, rfl, rfl, -⟩
  · have hmoved : ∀ id inst, g.instances.inner.lookup id = some inst → inst.token = s.token →
        s'.beats = s.beats := fun _ _ _ _ => hbeats
    rcases Session.step_cases hstep with ⟨hi, ht, hq⟩ | ⟨msg, hpc, rfl, rfl⟩ | ⟨msg, hpc, hmap, rfl⟩ |
      ⟨hpc, hmap, rfl⟩ | ⟨hpc, hmap, rfl⟩ | ⟨hb, msg, hpc, -, -⟩ | ⟨hent, hmap, pc, rfl, hent', -⟩
    · refine (h.same (.of_inner ht hi)).advance hs (fun hno => ?_) (fun hent => ?_) fun _ _ _ _ => hbeats
      · rw [hq.received]
        exact h.unentered me s hs (mt hq.entered.mp hno)
      · exact ⟨hq.entered.mpr hent, hq.token⟩
    · have hent : s.Entered := by rw [Session.Entered, hpc]; trivial
      exact h.advance hs (fun hno => absurd trivial hno) (fun _ => ⟨hent, rfl⟩) hmoved
    · have hent : s.Entered := by rw [Session.Entered, hpc]; trivial
      obtain ⟨hent', -, -⟩ := Session.afterPush_entered s msg
      rw [hmap]
      refine (h.same (InstanceMap.enqueueInbound_same _ _ _)).advance hs
        (fun hno => absurd hent' hno) (fun _ => ⟨hent, rfl⟩) fun _ _ _ _ => hbeats
    · have hno : ¬ s.Entered := by rw [Session.Entered, hpc]; exact id
      have hentries : RecordInv g'.instances ss := by
        refine h.set_entries fun id inst' hl => ?_
        rw [hmap] at hl
        exact ⟨inst', hl, .refl inst'⟩
      exact hentries.advance hs (fun _ => h.unentered me s hs hno) (fun hent => hent.elim)
        fun _ _ _ _ => hbeats
    · rw [hmap]
      exact h.insert inv hs hpc
    · exact absurd hpc (hother hb msg)
    · have hentries : RecordInv g'.instances ss := by
        refine h.set_entries fun id inst' hl => ?_
        rw [hmap] at hl
        exact ⟨inst', (InstanceMap.lookup_removeEntry hl).1, .refl inst'⟩
      exact hentries.advance hs (fun hno => absurd hent' hno) (fun _ => ⟨hent, rfl⟩)
        fun _ _ _ _ => hbeats
  · have hent : s.Entered := by rw [Session.Entered, hpc]; trivial
    rw [hmap]
    exact h.record inv hs hent trivial rfl hbeats
  · have hent : s.Entered := by rw [Session.Entered, hpc]; trivial
    refine h.advance hs (fun hno => absurd trivial hno) (fun _ => ⟨hent, rfl⟩) ?_
    -- a stream that has lost its entry holds the token of none
    intro id inst hl htok
    have ho : s.Owns id inst := inv.owns_of_token hs hent.hasToken hl htok
    have hown : g'.instances.owns s.register.instanceId s.token = true :=
      InstanceMap.owns_eq_true.mpr ⟨inst, ho.key ▸ hl, htok⟩
    rw [hlost] at hown
    cases hown

theorem of_boot {c : Config Host Task} (h : Boot c) :
    RecordInv c.shared.instances (handlers c) := by
  have hfresh : ∀ t s, handlers c t = some s → s = { dialler := s.dialler } := by
    intro t s ht
    have hf := h.fresh t
    rw [Task.handler_eq_some.mp ht] at hf
    exact hf
  refine ⟨fun t s ht _ => congrArg Session.received (hfresh t s ht), ?_⟩
  intro t s id inst ht hs
  rw [Session.Entered, congrArg Session.pc (hfresh t s ht)] at hs
  exact hs.elim

/-- **The recorded heartbeat.** At every point of every schedule the entry of a stream
holds the last heartbeat that the stream has recorded. -/
theorem of_reach {ok : Pool.Guard Host Task Choice} {c₀ c : Config Host Task} (boot : Boot c₀)
    (run : proxy.Reach ok c₀ c) : RecordInv c.shared.instances (handlers c) := by
  induction run with
  | refl => exact of_boot boot
  | tail hrun _ hf ih =>
    rcases fire_sessions hf with ⟨-, hk, hh⟩ | ⟨s, s', ht, hs, hh⟩
    · rw [hh]
      exact ih.same hk.same
    · rw [hh]
      exact ih.step (SessionsInv.of_reach boot hrun) rfl (Task.handler_eq_some.mpr ht) hs

end RecordInv

/-- What a stream has recorded at one point of a run it has recorded at every later one. -/
theorem recorded_of_reach {ok : Pool.Guard Host Task Choice} {c₀ c₁ c₂ : Config Host Task}
    (boot : Boot c₀) (before : proxy.Reach Pool.anyStep c₀ c₁) (run : proxy.Reach ok c₁ c₂)
    {k : Nat} {s₁ : Session} (h₁ : c₁.task k = .session s₁) :
    ∃ s₂, c₂.task k = .session s₂ ∧ s₁.recorded <+: s₂.recorded := by
  induction run with
  | refl => exact ⟨s₁, h₁, List.prefix_refl _⟩
  | @tail b c me i run _ hf ih =>
    obtain ⟨s₂, h₂, hgrow⟩ := ih
    have reach : proxy.Reach Pool.anyStep c₀ b := before.trans (run.mono fun _ _ _ _ => trivial)
    have inv := SessionsInv.of_reach boot reach
    obtain ⟨hs, hother⟩ := fire_task hf
    by_cases hkm : k = me
    · subst hkm
      rw [h₂] at hs
      obtain ⟨s₃, h₃, hstep⟩ := Task.step_session hs
      have hlocal : s₂.Local := inv.locals k s₂ (Task.handler_eq_some.mpr h₂)
      exact ⟨s₃, h₃, hgrow.trans (Session.step_beats hstep hlocal).grows⟩
    · exact ⟨s₂, (hother k hkm).trans h₂, hgrow⟩

end CsmProxy
