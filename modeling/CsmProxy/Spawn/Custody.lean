import CsmProxy.Foundations.Custody
import CsmProxy.Requests.Refinement
import CsmProxy.Spawn.Reservations

/-!
# Where a child is

A child is with the `start` that has spawned it, then in the table under its id, then with the
one `reap` that took it; in between it may be dropped. It is never in two places, and it is
signalled once at most, by a `reap` of the id it was started for (`children_kept`).
-/

namespace CsmProxy

open Foundations

/-- The child that is with the task, and the id that the task is busy with. -/
def Phase.holds : Phase → Option (String × Nat)
  | .spawned id child | .killing id child | .waiting id child => some (id, child)
  | _ => none

/-- Who has signalled the child that is with the task `t`. -/
def Phase.signals (t : Nat) : Phase → List Nat
  | .waiting .. => [t]
  | _ => []

namespace SpawnEffect

variable {me : Nat} {h h' : Host} {p p' : Phase} {id : String} {child : Nat}

/-- A child that is with the task was there before, was just spawned, or was just taken from
the table. -/
theorem holds_cases (he : SpawnEffect me h h' p p') (hp' : p'.holds = some (id, child)) :
    (p' = p ∧ p.holds = some (id, child)) ∨ (p = .killing id child ∧ p' = .waiting id child) ∨
      (p = .reserved id ∧ p' = .spawned id child ∧ h.process.lookup child = none ∧
        ∃ q, h'.process.lookup child = some q ∧ q.instanceId = id ∧ q.signalled = []) ∨
      (p = .taking id ∧ p' = .killing id child ∧ h.supervisor.children.lookup id = some child ∧
        h'.supervisor.children.lookup id = none) := by
  cases he with
  | quiet supervisor process moves =>
    cases moves with
    | stays => exact .inl ⟨rfl, hp'⟩
    | _ => cases hp'
  | @spawn id' child' pid supervisor unused process =>
    cases hp'
    refine .inr (.inr (.inl ⟨rfl, rfl, unused,
      { owner := me, instanceId := id, pid := pid }, ?_, rfl, rfl⟩))
    rw [process, HashMap.lookup_insert_ite, if_pos rfl]
  | @take id' supervisor process =>
    cases hl : h.supervisor.children.lookup id' with
    | none =>
      rw [hl] at hp'
      cases hp'
    | some child' =>
      rw [hl] at hp'
      cases hp'
      refine .inr (.inr (.inr ⟨rfl, rfl, hl, ?_⟩))
      rw [supervisor, Supervisor.takeChild, HashMap.lookup_erase_ite, if_pos rfl]
  | kill =>
    cases hp'
    exact .inr (.inl ⟨rfl, rfl⟩)
  | _ => cases hp'

/-- A process is signalled by the task that is about to kill it. -/
theorem signalled_step (he : SpawnEffect me h h' p p') {q : Process}
    (hl : h.process.lookup child = some q) :
    ∃ q', h'.process.lookup child = some q' ∧ q'.instanceId = q.instanceId ∧
      (q'.signalled = q.signalled ∨
        ∃ id, p = .killing id child ∧ p' = .waiting id child ∧ q'.signalled = q.signalled ++ [me]) := by
  cases he with
  | @spawn id k pid supervisor unused process =>
    have hk : child ≠ k := by
      rintro rfl
      rw [unused] at hl
      cases hl
    refine ⟨q, ?_, rfl, .inl rfl⟩
    rw [process, HashMap.lookup_insert_ite, if_neg hk, hl]
  | @kill id k supervisor process =>
    rw [process, HashMap.lookup_modify]
    split
    · rename_i hk
      subst hk
      exact ⟨_, congrArg (Option.map _) hl, rfl, .inr ⟨id, rfl, rfl, rfl⟩⟩
    · exact ⟨q, hl, rfl, .inl rfl⟩
  | @exited k supervisor process =>
    rw [process, HashMap.lookup_modify]
    split
    · rename_i hk
      subst hk
      exact ⟨_, congrArg (Option.map _) hl, rfl, .inl rfl⟩
    · exact ⟨q, hl, rfl, .inl rfl⟩
  | quiet _ process | reserve _ process | clear _ process | store _ process | take _ process =>
    exact ⟨q, by rw [process, hl], rfl, .inl rfl⟩

/-- The section in which `me` signals the child. -/
theorem signalled_of_kill (he : SpawnEffect me h h' (.killing id child) (.waiting id child))
    {q : Process} (hl : h.process.lookup child = some q) :
    ∃ q', h'.process.lookup child = some q' ∧ q'.instanceId = q.instanceId ∧
      q'.signalled = q.signalled ++ [me] := by
  cases he with
  | quiet supervisor process moves => cases moves
  | kill supervisor process =>
    refine ⟨{ q with signalled := q.signalled ++ [me] }, ?_, rfl, rfl⟩
    rw [process, HashMap.lookup_modify, if_pos rfl, hl]
    rfl

end SpawnEffect

/-! ## One place -/

/-- Where the children are. -/
def custody (c : Config Host Task) : Custody Nat String Nat where
  held t := (phases c t).holds.map Prod.snd
  stored := c.shared.supervisor.children.lookup

@[simp] theorem custody_held (c : Config Host Task) (t : Nat) :
    (custody c).held t = (phases c t).holds.map Prod.snd := rfl

@[simp] theorem custody_stored (c : Config Host Task) (id : String) :
    (custody c).stored id = c.shared.supervisor.children.lookup id := rfl

/-- The child was spawned. -/
def Host.Spawned (h : Host) (child : Nat) : Prop := ∃ q, h.process.lookup child = some q

/-- A stored child was stored before, or is stored now by the `start` that has spawned it. -/
theorem stored_cases {me : Nat} {h h' : Host} {p p' : Phase} (he : SpawnEffect me h h' p p') :
    (∀ id child, h'.supervisor.children.lookup id = some child →
      h.supervisor.children.lookup id = some child) ∨
    ∃ id child, p = .spawned id child ∧ p' = .idle ∧
      h'.supervisor.children = h.supervisor.children.insert id child := by
  by_cases hstore : ∃ id child, p = .spawned id child ∧ p' = .idle
  · obtain ⟨id, child, rfl, rfl⟩ := hstore
    cases he with
    | quiet supervisor process moves => cases moves
    | store supervisor process => exact .inr ⟨id, child, rfl, rfl, by rw [supervisor]; rfl⟩
  · refine .inl fun id child hl => ?_
    rcases he.lookup_children hl with hold | ⟨hp, hp'⟩
    · exact hold
    · exact absurd ⟨id, child, hp, hp'⟩ hstore

theorem custody_step {c c' : Config Host Task} {me : Nat}
    (he : SpawnEffect me c.shared c'.shared (phases c me) (phases c' me))
    (hother : ∀ t, t ≠ me → phases c' t = phases c t) :
    Custody.Step c.shared.Spawned c'.shared.Spawned (custody c) (custody c') := by
  have held : ∀ t child, (custody c').held t = some child →
      t = me ∨ (custody c).held t = some child := by
    intro t child ht
    by_cases htm : t = me
    · exact .inl htm
    · rw [custody_held, hother t htm] at ht
      exact .inr ht
  -- what `me` holds afterwards it has held before, when it holds nothing or the same child
  have keeps (hme : ∀ child, (custody c').held me = some child → (custody c).held me = some child) :
      ∀ t child, (custody c').held t = some child → (custody c).held t = some child := by
    intro t child ht
    rcases held t child ht with rfl | hold
    · exact hme child ht
    · exact hold
  rcases stored_cases he with stored | ⟨id, child, hp, hp', hchildren⟩
  · cases hh : (phases c' me).holds with
    | none =>
      refine .less ⟨keeps fun child hc => ?_, stored⟩
      rw [custody_held, hh] at hc
      cases hc
    | some held' =>
      obtain ⟨id, child⟩ := held'
      have hself : (custody c').held me = some child := congrArg (Option.map Prod.snd) hh
      have hsame (hp : (phases c me).holds = some (id, child)) :
          ∀ child, (custody c').held me = some child → (custody c).held me = some child := by
        intro child' hc
        rw [← hc, hself]
        exact congrArg (Option.map Prod.snd) hp
      rcases he.holds_cases hh with ⟨-, hp⟩ | ⟨hp, -⟩ | ⟨-, -, hnew, q, hq, -⟩ | ⟨-, -, hl, hgone⟩
      · exact .less ⟨keeps (hsame hp), stored⟩
      · exact .less ⟨keeps (hsame (by rw [hp]; rfl)), stored⟩
      · refine .acquire ?_ ⟨q, hq⟩ hself held stored
        rintro ⟨q', hq'⟩
        rw [hnew] at hq'
        cases hq'
      · exact .take (hself.trans hl.symm) hgone held stored
  · have hempty : (custody c').held me = none := by
      rw [custody_held, hp']
      rfl
    have hfull : (custody c).held me = some child := by
      rw [custody_held, hp]
      rfl
    refine .store (k := id) hfull hempty
      (keeps fun child hc => ?_) fun id' child' hl => ?_
    · rw [hempty] at hc
      cases hc
    · rw [custody_stored, hchildren, HashMap.lookup_insert_ite] at hl
      split at hl
      · rename_i hid
        exact .inl ⟨hid, (Option.some.inj hl).symm⟩
      · rename_i hid
        exact .inr ⟨hid, hl⟩

/-! ## Signals -/

/-- A child that is with a task or in the table was started for the id there, and only a `reap`
that waits for its exit has signalled it. -/
structure Signalled (c : Config Host Task) : Prop where
  held : ∀ t id child, (phases c t).holds = some (id, child) →
    ∃ q, c.shared.process.lookup child = some q ∧ q.instanceId = id ∧
      q.signalled = (phases c t).signals t
  stored : ∀ id child, c.shared.supervisor.children.lookup id = some child →
    ∃ q, c.shared.process.lookup child = some q ∧ q.instanceId = id ∧ q.signalled = []
  once : ∀ child q, c.shared.process.lookup child = some q → q.signalled.length ≤ 1

/-- Every child is in one place, and its signals are as its place says. -/
structure Kept (c : Config Host Task) : Prop where
  sound : (custody c).Sound c.shared.Spawned
  signalled : Signalled c

namespace Kept

variable {c c' : Config Host Task} {me : Nat} {i : Choice}

theorem of_boot (boot : Boot c) : Kept c := by
  have hholds : ∀ t, (phases c t).holds = none := by
    intro t
    obtain ⟨hreserves, htakes⟩ := boot.phase t
    cases hp : phases c t with
    | spawned => rw [hp] at hreserves; cases hreserves
    | killing | waiting => rw [hp] at htakes; cases htakes
    | _ => rfl
  have hstored : ∀ id, c.shared.supervisor.children.lookup id = none := by
    obtain ⟨default, config, now, hshared⟩ := boot.shared
    rw [hshared]
    exact fun id => HashMap.lookup_empty id
  refine ⟨.initial (fun t => by rw [custody_held, hholds t]; rfl) hstored, ?_, ?_, ?_⟩
  · intro t id child ht
    rw [hholds t] at ht
    cases ht
  · intro id child hl
    rw [hstored id] at hl
    cases hl
  · intro child q hl
    rw [boot.lookup_process child] at hl
    cases hl

/-- A child that `me` is not about to kill. -/
theorem untouched (he : SpawnEffect me c.shared c'.shared (phases c me) (phases c' me)) {child : Nat}
    {q : Process} {id : String} {signals : List Nat} (hl : c.shared.process.lookup child = some q)
    (hid : q.instanceId = id) (hsig : q.signalled = signals)
    (hme : ∀ id, phases c me = .killing id child → phases c' me ≠ .waiting id child) :
    ∃ q', c'.shared.process.lookup child = some q' ∧ q'.instanceId = id ∧ q'.signalled = signals := by
  obtain ⟨q', hl', hid', hsame | ⟨id', hkill, hwait, -⟩⟩ := he.signalled_step hl
  · exact ⟨q', hl', hid'.trans hid, hsame.trans hsig⟩
  · exact absurd hwait (hme id' hkill)

theorem held_of_killing {id : String} {child : Nat} (hp : phases c me = .killing id child) :
    (custody c).held me = some child := by
  rw [custody_held, hp]
  rfl

theorem step_held (inv : Kept c)
    (he : SpawnEffect me c.shared c'.shared (phases c me) (phases c' me))
    (hother : ∀ t, t ≠ me → phases c' t = phases c t) {t child : Nat} {id : String}
    (ht : (phases c' t).holds = some (id, child)) :
    ∃ q, c'.shared.process.lookup child = some q ∧ q.instanceId = id ∧
      q.signalled = (phases c' t).signals t := by
  by_cases htm : t = me
  · subst htm
    rcases he.holds_cases ht with ⟨hp', hp⟩ | ⟨hp, hp'⟩ | ⟨-, hp', -, q, hq⟩ | ⟨hp, hp', hl, -⟩
    · -- the task is where it was
      obtain ⟨q, hq, hid, hsig⟩ := inv.signalled.held t id child hp
      rw [← hp'] at hsig
      refine untouched he hq hid hsig fun id' hkill hwait => ?_
      rw [hp', hkill] at hwait
      cases hwait
    · -- the task has just signalled the child
      have hheld : (phases c t).holds = some (id, child) := by rw [hp]; rfl
      obtain ⟨q, hq, hid, hsig⟩ := inv.signalled.held t id child hheld
      rw [hp] at hsig
      rw [hp, hp'] at he
      rw [hp']
      obtain ⟨q', hq', hid', happended⟩ := he.signalled_of_kill hq
      rw [hsig] at happended
      exact ⟨q', hq', hid'.trans hid, happended⟩
    · rw [hp']
      exact ⟨q, hq⟩
    · obtain ⟨q, hq, hid, hsig⟩ := inv.signalled.stored id child hl
      rw [hp']
      refine untouched he hq hid hsig fun id' hkill => ?_
      rw [hp] at hkill
      cases hkill
  · rw [hother t htm] at ht ⊢
    obtain ⟨q, hq, hid, hsig⟩ := inv.signalled.held t id child ht
    refine untouched he hq hid hsig fun id' hkill => ?_
    have hheld : (custody c).held t = some child := congrArg (Option.map Prod.snd) ht
    exact absurd (inv.sound.one_holder t me child hheld (held_of_killing hkill)) htm

theorem step_stored (inv : Kept c)
    (he : SpawnEffect me c.shared c'.shared (phases c me) (phases c' me)) {child : Nat} {id : String}
    (hl : c'.shared.supervisor.children.lookup id = some child) :
    ∃ q, c'.shared.process.lookup child = some q ∧ q.instanceId = id ∧ q.signalled = [] := by
  have hold (hl : c.shared.supervisor.children.lookup id = some child) :
      ∃ q, c'.shared.process.lookup child = some q ∧ q.instanceId = id ∧ q.signalled = [] := by
    obtain ⟨q, hq, hid, hsig⟩ := inv.signalled.stored id child hl
    refine untouched he hq hid hsig fun id' hkill => ?_
    exact absurd hl (inv.sound.apart me id child (held_of_killing hkill))
  rcases stored_cases he with stored | ⟨id', child', hp, hp', hchildren⟩
  · exact hold (stored id child hl)
  · rw [hchildren, HashMap.lookup_insert_ite] at hl
    split at hl
    · rename_i hid
      subst hid
      obtain rfl := Option.some.inj hl
      have hheld : (phases c me).holds = some (id, child') := by rw [hp]; rfl
      obtain ⟨q, hq, hqid, hsig⟩ := inv.signalled.held me id child' hheld
      rw [hp] at hsig
      refine untouched he hq hqid hsig fun id' hkill => ?_
      rw [hp] at hkill
      cases hkill
    · exact hold hl

theorem step_once (inv : Kept c)
    (he : SpawnEffect me c.shared c'.shared (phases c me) (phases c' me)) {child : Nat} {q' : Process}
    (hl : c'.shared.process.lookup child = some q') : q'.signalled.length ≤ 1 := by
  rcases he.process_cases hl with ⟨q, hq, -⟩ | ⟨id, pid, -, -, -, rfl⟩
  · obtain ⟨q'', hl', -, hsame | ⟨id, hkill, -, happended⟩⟩ := he.signalled_step hq
    · obtain rfl := Option.some.inj (hl.symm.trans hl')
      rw [hsame]
      exact inv.signalled.once child q hq
    · obtain rfl := Option.some.inj (hl.symm.trans hl')
      have hheld : (phases c me).holds = some (id, child) := by rw [hkill]; rfl
      obtain ⟨q₁, hq₁, -, hsig⟩ := inv.signalled.held me id child hheld
      obtain rfl := Option.some.inj (hq.symm.trans hq₁)
      rw [hkill] at hsig
      rw [happended, hsig]
      exact Nat.le_refl 1
  · exact Nat.zero_le 1

theorem step (inv : Kept c) (hf : proxy.fire c me i = some c') : Kept c' := by
  obtain ⟨he, hother⟩ := fire_spawn hf
  have hspawned : ∀ child, c.shared.Spawned child → c'.shared.Spawned child := by
    rintro child ⟨q, hq⟩
    obtain ⟨q', hq', -⟩ := he.process_stays hq
    exact ⟨q', hq'⟩
  exact ⟨inv.sound.step hspawned (custody_step he hother),
    fun _ _ _ => inv.step_held he hother, fun _ _ => inv.step_stored he, fun _ _ => inv.step_once he⟩

theorem of_reach {c₀ : Config Host Task} (boot : Boot c₀) (run : proxy.Reach Pool.anyStep c₀ c) :
    Kept c :=
  run.invariant (.of_boot boot) fun _ _ _ _ inv _ hf => inv.step hf

end Kept

/-! ## The result -/

/-- What holds of the children of the server at any time. -/
structure ChildrenKept (c : Config Host ServerTask) : Prop where
  /-- A child is signalled once at most. -/
  once : ∀ child q, c.shared.process.lookup child = some q → q.signalled.length ≤ 1
  /-- A stored child was started for its id, and was not signalled. -/
  stored : ∀ id child, c.shared.supervisor.children.lookup id = some child →
    ∃ q, c.shared.process.lookup child = some q ∧ q.instanceId = id ∧ q.signalled = []
  /-- A reap is about to signal a child of its own id, which was not signalled. -/
  killing : ∀ t u id child, c.task t = .task u → u.phase = .killing id child →
    ∃ q, c.shared.process.lookup child = some q ∧ q.instanceId = id ∧ q.signalled = []
  /-- A child that is with a task is not stored. -/
  apart : ∀ t u id id' child, c.task t = .task u → u.phase.holds = some (id, child) →
    c.shared.supervisor.children.lookup id' ≠ some child
  /-- A child is with one task at most. -/
  one : ∀ t t' u u' id id' child, c.task t = .task u → c.task t' = .task u' →
    u.phase.holds = some (id, child) → u'.phase.holds = some (id', child) → t = t'

/-- **Custody of the children.** In every run, a child is in one place at most, and it is
signalled once at most, by a reap of the id that it was started for. -/
theorem children_kept {c₀ c : Config Host ServerTask} (boot : ServerBoot c₀)
    (run : server.Reach Pool.anyStep c₀ c) : ChildrenKept c := by
  obtain ⟨d₀, d, sim⟩ := Simulates.of_reach boot run
  obtain ⟨sound, signalled⟩ := Kept.of_reach sim.boot sim.reach
  have he := sim.embedded
  have hphase : ∀ {t u}, c.task t = .task u → phases d (own t) = u.phase := by
    intro t u ht
    rw [phases, he.task t u (by rw [ht]; rfl)]
  have hheld : ∀ {t u id child}, c.task t = .task u → u.phase.holds = some (id, child) →
      (custody d).held (own t) = some child := by
    intro t u id child ht hu
    rw [custody_held, hphase ht, hu]
    rfl
  refine ⟨?_, ?_, ?_, ?_, ?_⟩
  · intro child q hl
    rw [← he.shared] at hl
    exact signalled.once child q hl
  · intro id child hl
    rw [← he.shared] at hl ⊢
    exact signalled.stored id child hl
  · intro t u id child ht hu
    have hkilling := signalled.held (own t) id child (by rw [hphase ht, hu]; rfl)
    rw [hphase ht, hu] at hkilling
    rw [← he.shared]
    exact hkilling
  · intro t u id id' child ht hu
    rw [← he.shared]
    exact sound.apart (own t) id' child (hheld ht hu)
  · intro t t' u u' id id' child ht ht' hu hu'
    exact own_injective (sound.one_holder _ _ child (hheld ht hu) (hheld ht' hu'))

/-- A start of `a` and a reap of it. -/
def startThenReap : Config Host ServerTask :=
  .ofTasks { instances := InstanceMap.new.setDefaultInstance none,
             config := { binary := some "crosspoint-simulator" } }
    [.task (.supervisor (.start { instanceId := "a" } (.check false))),
      .task (.supervisor (.reap "a" .take))]
    (.task .environment)

theorem serverBoot_startThenReap : ServerBoot startThenReap where
  shared := ⟨none, { binary := some "crosspoint-simulator" }, 0, rfl⟩
  fresh := by
    refine Config.forall_ofTasks (p := ServerTask.Fresh) trivial fun t ht => ?_
    rcases List.mem_pair.mp ht with rfl | rfl
    · exact .inl ⟨_, _, rfl⟩
    · exact .inr (.inl ⟨_, rfl⟩)

theorem children_kept_reaped :
    ∃ c, server.Reach Pool.anyStep startThenReap c ∧
      (c.shared.process.lookup 0).map Process.signalled = some [own 1] ∧ ChildrenKept c := by
  obtain ⟨c, run, hsignalled⟩ := server.exists_reach Pool.anyStep startThenReap
    (List.replicate 5 (0, .run) ++ [(0, .spawned 0 1), (0, .run), (1, .run), (1, .run)])
    (fun c => (c.shared.process.lookup 0).map Process.signalled = some [own 1]) (by decide +kernel)
  exact ⟨c, run, hsignalled, children_kept serverBoot_startThenReap run⟩

end CsmProxy
