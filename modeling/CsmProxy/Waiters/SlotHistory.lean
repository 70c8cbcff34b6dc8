import CsmProxy.Foundations.History
import CsmProxy.Waiters.Slot

/-!
# What a waiter has seen

The history of the waiters, as the waiter of one call sees it. `firstMatch` is the first
envelope that it accepts of those that were pushed since it was stored. While no removal
takes the waiter, it is stored as long as there is no such envelope, and the one that
there is goes to the call (`Slot.Matched`). `Slot.Ends` says how the call ends.
-/

namespace CsmProxy

open Foundations

/-- The first envelope that the waiter of task `k` accepts, with its push, since it was
stored. The newest event comes first. -/
def firstMatch (k : Nat) (answers : SimToServer → Bool) :
    List WaiterEvent → Option (Nat × SimToServer)
  | [] => none
  | .registered k' :: log => if k' = k then none else firstMatch k answers log
  | .pushed p msg :: log => (firstMatch k answers log).or
      (if .registered k ∈ log ∧ answers msg = true then some (p, msg) else none)
  | _ :: log => firstMatch k answers log

/-- The error that the call is about to return, or has returned. -/
def SendPc.error : SendPc → Option WaitError
  | .forget err | .take err => some err
  | .returned (.error err) => some err
  | _ => none

section FirstMatch

variable {k : Nat} {answers : SimToServer → Bool} {log : List WaiterEvent}

theorem firstMatch_registered : firstMatch k answers (.registered k :: log) = none := if_pos rfl

/-- The first match stays the first. -/
theorem firstMatch_some {e : Option WaiterEvent} {x : Nat × SimToServer}
    (he : e ≠ some (.registered k)) (h : firstMatch k answers log = some x) :
    firstMatch k answers (e.toList ++ log) = some x := by
  cases e with
  | none => exact h
  | some e =>
    cases e with
    | registered k' =>
      have hne : k' ≠ k := by
        rintro rfl
        exact he rfl
      exact (if_neg hne).trans h
    | pushed p msg =>
      change (firstMatch k answers log).or _ = _
      rw [h]
      rfl
    | _ => exact h

/-- An envelope that the waiter does not accept is no match. -/
theorem firstMatch_none {e : Option WaiterEvent}
    (he : ∀ p msg, e = some (.pushed p msg) → answers msg = false)
    (h : firstMatch k answers log = none) : firstMatch k answers (e.toList ++ log) = none := by
  cases e with
  | none => exact h
  | some e =>
    cases e with
    | registered k' =>
      change (if k' = k then none else firstMatch k answers log) = none
      rw [h]
      exact ite_self _
    | pushed p msg =>
      have hnot : ¬ (.registered k ∈ log ∧ answers msg = true) := by simp [he p msg rfl]
      change (firstMatch k answers log).or
        (if .registered k ∈ log ∧ answers msg = true then some (p, msg) else none) = none
      rw [h, if_neg hnot]
      rfl
    | _ => exact h

/-- The first envelope that the waiter accepts. -/
theorem firstMatch_pushed {p : Nat} {msg : SimToServer} (hreg : .registered k ∈ log)
    (h : firstMatch k answers log = none) (hans : answers msg = true) :
    firstMatch k answers (.pushed p msg :: log) = some (p, msg) := by
  change (firstMatch k answers log).or _ = _
  rw [h, if_pos ⟨hreg, hans⟩]
  rfl

/-- The first match was pushed, and the waiter accepts it. -/
theorem pushed_of_firstMatch {p : Nat} {msg : SimToServer}
    (h : firstMatch k answers log = some (p, msg)) :
    .pushed p msg ∈ log ∧ answers msg = true := by
  induction log with
  | nil => cases h
  | cons e log ih =>
    have hcons : firstMatch k answers log = some (p, msg) →
        .pushed p msg ∈ e :: log ∧ answers msg = true := by
      intro hold
      exact ⟨List.mem_cons_of_mem e (ih hold).1, (ih hold).2⟩
    cases e with
    | registered k' =>
      change (if k' = k then none else firstMatch k answers log) = _ at h
      split at h
      · cases h
      · exact hcons h
    | pushed p' msg' =>
      change (firstMatch k answers log).or _ = _ at h
      rcases Option.or_eq_some_iff.mp h with hold | ⟨-, hnew⟩
      · exact hcons hold
      · split at hnew
        · rename_i hans
          cases hnew
          exact ⟨List.mem_cons_self, hans.2⟩
        · cases hnew
    | _ => exact hcons h

end FirstMatch

namespace Slot

/-! ## Which envelope the call gets -/

/-- The waiter is stored as long as it has no match, and the match goes to the call. -/
structure Matched (k : Nat) (answers : SimToServer → Bool) (log : List WaiterEvent) (s : Slot) :
    Prop where
  stored : s.waiter = true → .registered k ∈ log ∧ firstMatch k answers log = none
  held : ∀ p msg, s.grip p = .taken msg ∨ s.grip p = .forgotten msg →
    firstMatch k answers log = some (p, msg)
  sent : ∀ via reply, s.oneshot = .sent via reply →
    ∃ p, firstMatch k answers log = some (p, reply)
  handed : ∀ p, .handed p k ∈ log → ∃ via reply, s.oneshot = .sent via reply ∧
    firstMatch k answers log = some (p, reply)
  dropped : s.oneshot = .dropped → s.pc.ended = true
  replied : ∀ reply, s.pc = .returned (.ok reply) →
    ∃ p, firstMatch k answers log = some (p, reply)

/-- The event is no registration of the waiter, no match and no hand-over. -/
def Quiet (k : Nat) (answers : SimToServer → Bool) (e : Option WaiterEvent) (s : Slot) : Prop :=
  e ≠ some (.registered k) ∧ (∀ p, e ≠ some (.handed p k)) ∧
    ∀ p msg, e = some (.pushed p msg) → answers msg = true → s.waiter = false

theorem quiet_queued {k : Nat} {answers : SimToServer → Bool} {s : Slot} :
    Quiet k answers (some (.queued k)) s :=
  ⟨by simp, fun _ => by simp, fun _ _ h => by cases h⟩

theorem quiet_timedOut {k : Nat} {answers : SimToServer → Bool} {s : Slot} :
    Quiet k answers (some (.timedOut k)) s :=
  ⟨by simp, fun _ => by simp, fun _ _ h => by cases h⟩

theorem quiet_of_idle {k : Nat} {answers : SimToServer → Bool} {e : Option WaiterEvent} {s : Slot}
    (he : s.Idle k answers e) : Quiet k answers e s := by
  refine ⟨?_, fun p => ?_, fun p msg => ?_⟩
  · rintro rfl
    exact he rfl
  · rintro rfl
    exact he rfl
  · rintro rfl
    exact he

namespace Matched

variable {k : Nat} {answers : SimToServer → Bool} {log : List WaiterEvent} {s s' : Slot}

theorem of_initial : Matched k answers [] initial :=
  ⟨nofun, fun _ _ h => (by rcases h with h | h <;> cases h), (fun _ _ h => by cases h),
    (fun _ h => by cases h), nofun, (fun _ h => by cases h)⟩

/-- A quiet event changes nothing. -/
theorem note (m : Matched k answers log s) {e : Option WaiterEvent} (he : Quiet k answers e s) :
    Matched k answers (e.toList ++ log) s := by
  obtain ⟨hreg, hhanded, hpushed⟩ := he
  refine ⟨?_, ?_, ?_, ?_, m.dropped, ?_⟩
  · intro hw
    obtain ⟨hmem, hnone⟩ := m.stored hw
    refine ⟨List.mem_append_right _ hmem, firstMatch_none (fun p msg he => ?_) hnone⟩
    by_contra hans
    rw [hpushed p msg he (Bool.eq_true_of_not_eq_false hans)] at hw
    cases hw
  · intro p msg hp
    exact firstMatch_some hreg (m.held p msg hp)
  · intro via reply ho
    obtain ⟨p, hp⟩ := m.sent via reply ho
    exact ⟨p, firstMatch_some hreg hp⟩
  · intro p hmem
    have hold : .handed p k ∈ log := by
      rcases List.mem_append.mp hmem with hnew | hold
      · exact absurd (Option.mem_toList.mp hnew) (hhanded p)
      · exact hold
    obtain ⟨via, reply, ho, hp⟩ := m.handed p hold
    exact ⟨via, reply, ho, firstMatch_some hreg hp⟩
  · intro reply hpc
    obtain ⟨p, hp⟩ := m.replied reply hpc
    exact ⟨p, firstMatch_some hreg hp⟩

/-- The call moves on and the waiter stays. -/
theorem move (m : Matched k answers log s) (hw : s'.waiter = s.waiter)
    (ho : s'.oneshot = s.oneshot) (hg : s'.grip = s.grip)
    (hended : s.oneshot = .dropped → s.pc.ended = true → s'.pc.ended = true)
    (hreplied : ∀ reply, s'.pc = .returned (.ok reply) →
      s.pc = .returned (.ok reply) ∨ ∃ via, s.oneshot = .sent via reply) :
    Matched k answers log s' := by
  refine ⟨?_, ?_, ?_, ?_, ?_, ?_⟩
  · rw [hw]
    exact m.stored
  · rw [hg]
    exact m.held
  · rw [ho]
    exact m.sent
  · rw [ho]
    exact m.handed
  · rw [ho]
    intro hdropped
    exact hended hdropped (m.dropped hdropped)
  · intro reply hpc
    rcases hreplied reply hpc with hold | ⟨via, hsent⟩
    · exact m.replied reply hold
    · exact m.sent via reply hsent

/-- The call moves on without a reply. -/
theorem advance (m : Matched k answers log s) {pc : SendPc} {recorded : Bool}
    (hended : s.pc.ended = false) (hreply : ∀ reply, pc ≠ .returned (.ok reply)) :
    Matched k answers log { s with pc := pc, recorded := recorded } := by
  refine m.move rfl rfl rfl (fun _ h => ?_) (fun reply h => absurd h (hreply reply))
  rw [hended] at h
  cases h

/-- The call stores its waiter. -/
theorem insertWaiter (m : Matched k answers log s) (core : s.Core) (hpc : s.pc = .insertWaiter) :
    Matched k answers (.registered k :: log)
      { s.unregister with pc := .insertInstance, waiter := true } := by
  obtain ⟨hw, ho, hfree⟩ := core.fresh (by rw [hpc]; rfl)
  have ho' : (if s.waiter = true then .dropped else s.oneshot) = Oneshot.waiting := by
    rw [hw, if_neg Bool.false_ne_true]
    exact ho
  refine ⟨fun _ => ⟨List.mem_cons_self, firstMatch_registered⟩, ?_, ?_, ?_, ?_,
    fun _ h => by cases h⟩
  · intro p msg hp
    rw [show s.unregister.grip p = .free from hfree p] at hp
    rcases hp with hp | hp <;> cases hp
  · intro via reply hsent
    exact absurd (ho'.symm.trans hsent) (by simp)
  · intro p hmem
    have hold : .handed p k ∈ log := by simpa using hmem
    obtain ⟨via, reply, hsent, -⟩ := m.handed p hold
    rw [ho] at hsent
    cases hsent
  · intro hdropped
    exact absurd (ho'.symm.trans hdropped) (by simp)

/-- The call takes its waiter out and returns an error. -/
theorem take (m : Matched k answers log s) (core : s.Core) {err : WaitError} :
    Matched k answers log { s.unregister with pc := .returned (.error err) } := by
  refine ⟨nofun, m.held, ?_, ?_, fun _ => rfl, fun _ h => by cases h⟩
  · intro via reply hsent
    change (if s.waiter then Oneshot.dropped else s.oneshot) = _ at hsent
    split at hsent
    · cases hsent
    · exact m.sent via reply hsent
  · intro p hmem
    obtain ⟨via, reply, hsent, hp⟩ := m.handed p hmem
    refine ⟨via, reply, ?_, hp⟩
    change (if s.waiter then Oneshot.dropped else s.oneshot) = _
    rw [core.not_stored_of_settled (by simp [hsent]), if_neg Bool.false_ne_true]
    exact hsent

/-- The first match takes the waiter. -/
theorem complete (m : Matched k answers log s) (core : s.Core) {p : Nat} {msg : SimToServer}
    (hw : s.waiter = true) (hans : answers msg = true) :
    Matched k answers (.pushed p msg :: log)
      { s with waiter := false, grip := Function.update s.grip p (.taken msg) } := by
  obtain ⟨hreg, hnone⟩ := m.stored hw
  obtain ⟨ho, hfree, -⟩ := core.stored hw
  have hfirst : firstMatch k answers (.pushed p msg :: log) = some (p, msg) :=
    firstMatch_pushed hreg hnone hans
  refine ⟨nofun, ?_, ?_, ?_, ?_, ?_⟩
  · intro p' msg' hp'
    dsimp only at hp'
    by_cases heq : p' = p
    · subst heq
      rw [Function.update_self] at hp'
      rcases hp' with hp' | hp' <;> cases hp'
      exact hfirst
    · rw [Function.update_of_ne heq, hfree p'] at hp'
      rcases hp' with hp' | hp' <;> cases hp'
  · intro via reply hsent
    rw [show s.oneshot = .sent via reply from hsent] at ho
    cases ho
  · intro p' hmem
    have hold : .handed p' k ∈ log := by simpa using hmem
    obtain ⟨via, reply, hsent, -⟩ := m.handed p' hold
    rw [ho] at hsent
    cases hsent
  · intro hdropped
    rw [show s.oneshot = .dropped from hdropped] at ho
    cases ho
  · intro reply hpc
    obtain ⟨p', hp'⟩ := m.replied reply hpc
    rw [hnone] at hp'
    cases hp'

/-- The push that holds the sender deletes the record. -/
theorem delete (m : Matched k answers log s) {p : Nat} {msg : SimToServer}
    (hp : s.grip p = .taken msg) :
    Matched k answers log
      { s with recorded := false, grip := Function.update s.grip p (.forgotten msg) } := by
  refine ⟨m.stored, ?_, m.sent, m.handed, m.dropped, m.replied⟩
  intro p' msg' hp'
  dsimp only at hp'
  by_cases heq : p' = p
  · subst heq
    rw [Function.update_self] at hp'
    rcases hp' with hp' | hp' <;> cases hp'
    exact m.held p' msg (.inl hp)
  · rw [Function.update_of_ne heq] at hp'
    exact m.held p' msg' hp'

/-- The push that holds the sender sends its envelope: the first match. -/
theorem hand (m : Matched k answers log s) (core : s.Core) {p : Nat} {via : String}
    {msg : SimToServer} (hp : s.grip p = .forgotten msg) :
    Matched k answers (.handed p k :: log)
      { s with oneshot := .sent via msg, grip := Function.update s.grip p .free } := by
  have hfirst : firstMatch k answers (.handed p k :: log) = some (p, msg) :=
    m.held p msg (.inr hp)
  obtain ⟨hw, ho, honly⟩ := core.held p (by simp [hp])
  refine ⟨?_, ?_, ?_, ?_, nofun, ?_⟩
  · intro hw'
    rw [show s.waiter = true from hw'] at hw
    cases hw
  · intro p' msg' hp'
    dsimp only at hp'
    by_cases heq : p' = p
    · rw [heq, Function.update_self] at hp'
      rcases hp' with hp' | hp' <;> cases hp'
    · rw [Function.update_of_ne heq] at hp'
      refine absurd (honly p' fun hfree => ?_) heq
      rw [hfree] at hp'
      rcases hp' with hp' | hp' <;> cases hp'
  · intro via' reply hsent
    cases hsent
    exact ⟨p, hfirst⟩
  · intro p' hmem
    rcases List.mem_cons.mp hmem with heq | hold
    · cases heq
      exact ⟨via, msg, rfl, hfirst⟩
    · obtain ⟨via', reply, hsent, -⟩ := m.handed p' hold
      rw [ho] at hsent
      cases hsent
  · intro reply hpc
    obtain ⟨p', hp'⟩ := m.replied reply hpc
    exact ⟨p', hp'⟩

theorem step (m : Matched k answers log s) (core : s.Core) {e : Option WaiterEvent}
    (hs : Step k answers e s s') (htaking : ∀ r, s.taking r = false) :
    Matched k answers (e.toList ++ log) s' := by
  cases hs with
  | connected hpc => exact m.advance (by rw [hpc]; rfl) (by simp)
  | unknown hpc => exact m.advance (by rw [hpc]; rfl) (by simp)
  | insertWaiter hpc => exact m.insertWaiter core hpc
  | insertInstance hpc => exact m.advance (by rw [hpc]; rfl) (by simp)
  | sent deadline hpc => exact (m.note quiet_queued).advance (by rw [hpc]; rfl) (by simp)
  | refused hpc _ => exact m.advance (by rw [hpc]; rfl) (by simp)
  | forget hpc => exact m.advance (by rw [hpc]; rfl) (by simp)
  | take hpc => exact m.take core
  | reply hpc ho =>
    refine m.move rfl rfl rfl (fun _ _ => rfl) fun reply hreply => ?_
    cases hreply
    exact .inr ⟨_, ho⟩
  | lost hpc ho => exact m.advance (by rw [hpc]; rfl) (by simp)
  | timeout hpc ho => exact (m.note quiet_timedOut).advance (by rw [hpc]; rfl) (by simp)
  | complete hw hans hp => exact m.complete core hw hans
  | delete hp => exact m.delete hp
  | hand via hp => exact m.hand core hp
  | collect => exact m.move rfl rfl rfl (fun _ h => h) fun _ h => .inl h
  | skip => exact m.move rfl rfl rfl (fun _ h => h) fun _ h => .inl h
  | pick hr => exact m.move rfl rfl rfl (fun _ h => h) fun _ h => .inl h
  | @fail _ r hr =>
    rw [htaking r] at hr
    cases hr
  | idle he => exact m.note (quiet_of_idle he)

/-- While the call waits, its waiter is stored and has no match, or the push of its first
match holds the sender, or the match is in its channel. -/
theorem waiting (m : Matched k answers log s) (core : s.Core) (hpc : s.pc.waits = true) :
    (firstMatch k answers log = none → s.waiter = true ∧ s.oneshot = .waiting) ∧
      ∀ p reply, firstMatch k answers log = some (p, reply) →
        s.grip p = .taken reply ∨ s.grip p = .forgotten reply ∨
          ∃ via, s.oneshot = .sent via reply := by
  have hended : s.pc.ended ≠ true := by
    intro h
    cases hc : s.pc with
    | returned result =>
      rw [hc] at hpc
      cases hpc
    | _ =>
      rw [hc] at h
      cases h
  -- a sender that is not stored is with the push of the first match, or its envelope is sent
  have hunstored : s.waiter = false → ∃ p reply, firstMatch k answers log = some (p, reply) ∧
      (s.grip p = .taken reply ∨ s.grip p = .forgotten reply ∨
        ∃ via, s.oneshot = .sent via reply) := by
    intro hw
    rcases core.unstored hw hpc with ho | ⟨p, hp⟩
    · cases hsent : s.oneshot with
      | waiting => exact absurd hsent ho
      | dropped => exact absurd (m.dropped hsent) hended
      | sent via reply =>
        obtain ⟨p, hfirst⟩ := m.sent via reply hsent
        exact ⟨p, reply, hfirst, .inr (.inr ⟨via, rfl⟩)⟩
    · cases hgrip : s.grip p with
      | free => exact absurd hgrip hp
      | taken reply => exact ⟨p, reply, m.held p reply (.inl hgrip), .inl hgrip⟩
      | forgotten reply => exact ⟨p, reply, m.held p reply (.inr hgrip), .inr (.inl hgrip)⟩
  cases hw : s.waiter with
  | true =>
    obtain ⟨-, hnone⟩ := m.stored hw
    refine ⟨fun _ => ⟨rfl, (core.stored hw).1⟩, fun p reply hfirst => ?_⟩
    rw [hnone] at hfirst
    cases hfirst
  | false =>
    obtain ⟨p, reply, hfirst, hheld⟩ := hunstored hw
    constructor
    · intro hnone
      rw [hfirst] at hnone
      cases hnone
    · intro p' reply' hfirst'
      rw [hfirst] at hfirst'
      cases hfirst'
      exact hheld

end Matched

/-! ## How the call ends -/

/-- What the events of the call say about where it is. -/
structure Ends (k : Nat) (log : List WaiterEvent) (s : Slot) : Prop where
  queued : .queued k ∈ log → (∃ deadline, s.pc = .await deadline) ∨
    (∃ reply, s.pc = .returned (.ok reply)) ∨ s.pc.error = some .timeout
  expired : s.pc.error = some .timeout → .timedOut k ∈ log
  late : ∀ before, .timedOut k :: before <:+ log → ∀ p, .handed p k ∉ before
  connected : s.pc.error ≠ some .disconnected

namespace Ends

variable {k : Nat} {answers : SimToServer → Bool} {log : List WaiterEvent} {s s' : Slot}

theorem of_initial : Ends k [] initial :=
  ⟨nofun, nofun, fun _ h => absurd (List.suffix_nil.mp h) (List.cons_ne_nil _ _), nofun⟩

/-- An event that is not the request and not the timeout of the call. -/
theorem note (ends : Ends k log s) {e : Option WaiterEvent} (hqueued : e ≠ some (.queued k))
    (hexpired : e ≠ some (.timedOut k)) : Ends k (e.toList ++ log) s := by
  refine ⟨?_, ?_, ?_, ends.connected⟩
  · intro hmem
    rcases List.mem_append.mp hmem with hnew | hold
    · exact absurd (Option.mem_toList.mp hnew) hqueued
    · exact ends.queued hold
  · intro hpc
    exact List.mem_append_right _ (ends.expired hpc)
  · intro before hsuffix
    rcases suffix_note hsuffix with ⟨hnew, -⟩ | hold
    · exact absurd hnew hexpired
    · exact ends.late before hold

/-- The request of a call is queued when it begins to wait, not earlier. -/
theorem not_queued (ends : Ends k log s) (hawait : ∀ deadline, s.pc ≠ .await deadline)
    (hended : s.pc.ended = false) (herror : s.pc.error ≠ some .timeout) : .queued k ∉ log := by
  intro hmem
  rcases ends.queued hmem with ⟨deadline, hpc⟩ | ⟨reply, hpc⟩ | hpc
  · exact hawait deadline hpc
  · rw [hpc] at hended
    cases hended
  · exact herror hpc

/-- A call whose request is not queued moves on. -/
theorem move (ends : Ends k log s) (hqueued : .queued k ∉ log)
    (hexpired : s'.pc.error ≠ some .timeout) (hconnected : s'.pc.error ≠ some .disconnected) :
    Ends k log s' :=
  ⟨fun hmem => absurd hmem hqueued, fun hpc => absurd hpc hexpired, ends.late, hconnected⟩

/-- A call with an error moves on with it. -/
theorem fail (ends : Ends k log s) (herror : s'.pc.error = s.pc.error)
    (hpc : s.pc.error.isSome = true) (hended : s.pc.ended = false) : Ends k log s' := by
  refine ⟨?_, ?_, ends.late, ?_⟩
  · intro hmem
    rcases ends.queued hmem with ⟨deadline, h⟩ | ⟨reply, h⟩ | h
    · rw [h] at hpc
      cases hpc
    · rw [h] at hended
      cases hended
    · exact .inr (.inr (herror.trans h))
  · rw [herror]
    exact ends.expired
  · rw [herror]
    exact ends.connected

/-- Whatever else happens to the waiter. -/
theorem stay (ends : Ends k log s) (hpc : s'.pc = s.pc) : Ends k log s' := by
  refine ⟨?_, ?_, ends.late, ?_⟩ <;> rw [hpc]
  · exact ends.queued
  · exact ends.expired
  · exact ends.connected

theorem step (ends : Ends k log s) (m : Matched k answers log s) {e : Option WaiterEvent}
    (hs : Step k answers e s s') : Ends k (e.toList ++ log) s' := by
  have hearly : s.pc.waits = false ∨ s.pc = .insertInstance ∨ s.pc = .trySend →
      s.pc.error = none → s.pc.ended = false → .queued k ∉ log := by
    intro hpc herror hended
    refine ends.not_queued (fun deadline h => ?_) hended (by simp [herror])
    rw [h] at hpc
    rcases hpc with hpc | hpc | hpc <;> cases hpc
  cases hs with
  | connected hpc =>
    have hnot := hearly (.inl (by rw [hpc]; rfl)) (by rw [hpc]; rfl) (by rw [hpc]; rfl)
    exact ends.move hnot nofun nofun
  | unknown hpc =>
    have hnot := hearly (.inl (by rw [hpc]; rfl)) (by rw [hpc]; rfl) (by rw [hpc]; rfl)
    exact ends.move hnot nofun nofun
  | insertWaiter hpc =>
    have hnot := hearly (.inl (by rw [hpc]; rfl)) (by rw [hpc]; rfl) (by rw [hpc]; rfl)
    exact (ends.note (by simp) (by simp)).move (by simpa using hnot) nofun nofun
  | insertInstance hpc =>
    have hnot := hearly (.inr (.inl hpc)) (by rw [hpc]; rfl) (by rw [hpc]; rfl)
    exact ends.move hnot nofun nofun
  | sent deadline hpc =>
    refine ⟨fun _ => .inl ⟨deadline, rfl⟩, nofun, ?_, nofun⟩
    intro before hsuffix
    rcases suffix_note hsuffix with ⟨hnew, -⟩ | hold
    · cases hnew
    · exact ends.late before hold
  | refused hpc herr =>
    have hnot := hearly (.inr (.inr hpc)) (by rw [hpc]; rfl) (by rw [hpc]; rfl)
    rcases herr with rfl | rfl <;> exact ends.move hnot nofun nofun
  | forget hpc => exact ends.fail (by rw [hpc]; rfl) (by rw [hpc]; rfl) (by rw [hpc]; rfl)
  | take hpc => exact ends.fail (by rw [hpc]; rfl) (by rw [hpc]; rfl) (by rw [hpc]; rfl)
  | @reply _ _ _ msg hpc ho => exact ⟨fun _ => .inr (.inl ⟨msg, rfl⟩), nofun, ends.late, nofun⟩
  | lost hpc ho =>
    -- nobody drops the sender of a call that waits
    have hended := m.dropped ho
    rw [hpc] at hended
    cases hended
  | timeout hpc ho =>
    refine ⟨fun _ => .inr (.inr rfl), fun _ => List.mem_cons_self, ?_, nofun⟩
    intro before hsuffix p hmem
    rcases suffix_note hsuffix with ⟨-, rfl⟩ | hold
    · obtain ⟨via, reply, hsent, -⟩ := m.handed p hmem
      rw [ho] at hsent
      cases hsent
    · exact ends.late before hold p hmem
  | complete hw hans hp => exact (ends.note (by simp) (by simp)).stay rfl
  | delete hp => exact ends.stay rfl
  | hand via hp => exact (ends.note (by simp) (by simp)).stay rfl
  | collect => exact ends.stay rfl
  | skip => exact ends.stay rfl
  | pick hr => exact ends.stay rfl
  | fail hr => exact ends.stay rfl
  | idle he =>
    refine ends.note ?_ ?_
    · rintro rfl
      exact he rfl
    · rintro rfl
      exact he rfl

/-- An envelope that is sent to the call before its timeout is returned by the call. -/
theorem prompt (ends : Ends k log s) (m : Matched k answers log s) {p : Nat}
    {before : List WaiterEvent} (hqueued : .queued k ∈ log)
    (hhanded : .handed p k :: before <:+ log) (hlate : .timedOut k ∉ before) :
    ∃ reply, firstMatch k answers log = some (p, reply) ∧
      (s.pc = .returned (.ok reply) ∨
        ∃ deadline via, s.pc = .await deadline ∧ s.oneshot = .sent via reply) := by
  obtain ⟨via, reply, hsent, hfirst⟩ := m.handed p (hhanded.subset List.mem_cons_self)
  have hnot : .timedOut k ∉ log := by
    intro hmem
    obtain ⟨later, earlier, rfl⟩ := List.append_of_mem hmem
    have hsuffix : .timedOut k :: earlier <:+ later ++ .timedOut k :: earlier :=
      List.suffix_append _ _
    -- the timeout came after the envelope, or before it
    rcases List.suffix_or_suffix_of_suffix hsuffix hhanded with h | h
    · rcases List.suffix_cons_iff.mp h with he | h
      · cases he
      · exact hlate (h.subset List.mem_cons_self)
    · rcases List.suffix_cons_iff.mp h with he | h
      · cases he
      · exact ends.late earlier hsuffix p (h.subset List.mem_cons_self)
  refine ⟨reply, hfirst, ?_⟩
  rcases ends.queued hqueued with ⟨deadline, hpc⟩ | ⟨reply', hpc⟩ | herror
  · exact .inr ⟨deadline, via, hpc, hsent⟩
  · obtain ⟨p', hfirst'⟩ := m.replied reply' hpc
    rw [hfirst] at hfirst'
    cases hfirst'
    exact .inl hpc
  · exact absurd (ends.expired herror) hnot

end Ends

end Slot

end CsmProxy
