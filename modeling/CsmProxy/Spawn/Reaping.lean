import CsmProxy.Spawn.OneChild

/-!
# What a reap leaves behind

A `reap` that falls between the reservation and the store of a `start` clears the
reservation and finds no child; it returns, and the `start` goes on and stores a
running child (`not_reapEffective_mid_start`). `reap_all` does not even look at the
reservations. A reap is effective as long as it finds every live process of its id in the
table, or killed by another reap that is over before it, and no `start` spawns its process
after its reservation has been cleared (`reapEffective_of_reapsWhole`).

A reap, alone or as part of `reap_all`, is seen as a `Sweep`: what it is reaping and
what is still to come. The invariant says that the sweep accounts for every live
process of the starts that came before it.
-/

namespace CsmProxy

open Foundations

/-! ## The condition -/

/-- A reap has killed the process. -/
def Process.killed (p : Process) : Bool := !p.signalled.isEmpty

theorem Process.Becomes.killed {p p' : Process} (hb : p.Becomes p') (h : p.killed = true) :
    p'.killed = true := by
  obtain ⟨later, hlater⟩ := hb.signalled
  rw [Process.killed, ← hlater]
  rw [Process.killed] at h
  cases hs : p.signalled with
  | nil =>
    rw [hs] at h
    cases h
  | cons => rfl

namespace Host

/-- Every live process with an id in `ids` is stored, or is one of `old` and has been killed. -/
def accounts (h : Host) (old : Finset Nat) (ids : String → Bool) : Bool :=
  decide (∀ child ∈ h.process.keysWhere Process.alive, (h.process.lookup child).all fun p =>
    !ids p.instanceId || h.supervisor.children.lookup p.instanceId = some child ||
      (child ∈ old && p.killed))

/-- Of the processes of `old` with an id in `ids`, none that has been killed is alive. -/
def settled (h : Host) (old : Finset Nat) (ids : String → Bool) : Bool :=
  decide (∀ child ∈ h.process.keysWhere fun p => p.alive && p.killed && ids p.instanceId,
    child ∉ old)

variable {h : Host} {old : Finset Nat} {ids : String → Bool} {child : Nat} {p : Process}

theorem stored_or_killed (ha : h.accounts old ids = true) (hp : h.process.lookup child = some p)
    (hup : p.alive = true) (hid : ids p.instanceId = true) :
    h.supervisor.children.lookup p.instanceId = some child ∨ child ∈ old ∧ p.killed = true := by
  have hall := of_decide_eq_true ha child (HashMap.mem_keysWhere.mpr ⟨p, hp, hup⟩)
  rw [hp] at hall
  simpa [hid] using hall

theorem not_killed_of_settled (hs : h.settled old ids = true)
    (hp : h.process.lookup child = some p) (hup : p.alive = true) (hid : ids p.instanceId = true)
    (hold : child ∈ old) : p.killed = false := by
  by_contra hnot
  have hkilled : p.killed = true := Bool.of_not_eq_false hnot
  refine of_decide_eq_true hs child (HashMap.mem_keysWhere.mpr ⟨p, hp, ?_⟩) hold
  simp [hup, hid, hkilled]

end Host

/-- The processes that there are in `c`. -/
def processes (c : Config Host Task) : Finset Nat := c.shared.process.keys

/-- What task `me` finds in its next section, when it reaps. The reap of an id finds every
live process of the id stored, or killed by another reap; with nothing stored it finds none.
Its kills, and those of others, have taken effect when it is over. -/
def reapsWhole (c₁ c : Config Host Task) (me : Nat) : Bool :=
  match phases c me with
  | .taking id =>
    if (c.shared.supervisor.children.lookup id).isSome then
      c.shared.accounts (processes c₁) (· = id)
    else c.shared.running id = ∅
  | .waiting id child => !c.shared.alive child && c.shared.settled (processes c₁) (· = id)
  | _ =>
    match c.task me with
    | .supervisor (.reapAll .collect) =>
      c.shared.supervisor.starting = ∅ && c.shared.accounts (processes c₁) fun _ => true
    | .supervisor (.reapAll (.next rest)) =>
      rest ≠ ∅ || c₁.task me ≠ .supervisor (.reapAll .collect) ||
        c.shared.settled (processes c₁) fun _ => true
    | _ => true

def Choice.spawns : Choice → Bool
  | .spawned _ _ => true
  | _ => false

/-- A `start` that had reserved its id in `c₁` still has its reservation when it spawns its
process: the id is reserved, and by no other `start`. -/
def spawnsReserved (c₁ c : Config Host Task) (t : Nat) (i : Choice) : Prop :=
  ∀ id, phases c t = .reserved id → (phases c₁ t).reserves = some id → i.spawns = true →
    id ∈ c.shared.supervisor.starting ∧ ∀ u, u ≠ t → (phases c u).reserves ≠ some id

/-- The guard of the runs in which the reap of task `me`, which begins in `c₁`, misses no
process. -/
def ReapsWhole (me : Nat) (c₁ : Config Host Task) : Pool.Guard Host Task Choice :=
  fun c t i => (t = me → reapsWhole c₁ c me = true) ∧ spawnsReserved c₁ c t i

section

variable {c₁ c : Config Host Task} {me : Nat}

theorem reapsWhole_taking {id : String} (h : reapsWhole c₁ c me = true)
    (hme : phases c me = .taking id) :
    (c.shared.supervisor.children.lookup id = none ∧ c.shared.running id = ∅) ∨
      ∃ child, c.shared.supervisor.children.lookup id = some child ∧
        c.shared.accounts (processes c₁) (· = id) = true := by
  rw [reapsWhole, hme] at h
  cases hl : c.shared.supervisor.children.lookup id with
  | none => exact .inl ⟨rfl, by simpa [hl] using h⟩
  | some child => exact .inr ⟨child, rfl, by simpa [hl] using h⟩

theorem reapsWhole_waiting {id : String} {child : Nat} (h : reapsWhole c₁ c me = true)
    (hme : phases c me = .waiting id child) :
    c.shared.alive child = false ∧ c.shared.settled (processes c₁) (· = id) = true := by
  simpa [reapsWhole, hme] using h

theorem reapsWhole_collect (h : reapsWhole c₁ c me = true)
    (hme : c.task me = .supervisor (.reapAll .collect)) :
    c.shared.supervisor.starting = ∅ ∧
      c.shared.accounts (processes c₁) (fun _ => true) = true := by
  have hph : phases c me = .idle := by rw [phases, hme]; rfl
  simpa [reapsWhole, hph, hme] using h

theorem reapsWhole_finish (h : reapsWhole c₁ c me = true)
    (hme : c.task me = .supervisor (.reapAll (.next ∅)))
    (h₁ : c₁.task me = .supervisor (.reapAll .collect)) :
    c.shared.settled (processes c₁) (fun _ => true) = true := by
  have hph : phases c me = .idle := by rw [phases, hme]; rfl
  simpa [reapsWhole, hph, hme, h₁] using h

end

/-! ## Sweeps -/

section

variable {id : String} {me child : Nat} {h h' : Host} {i : Choice} {out : Option ReapPc}

theorem ReapPc.step_take (hs : ReapPc.take.step id me h i = some (h', out)) :
    out = (h.supervisor.children.lookup id).map .kill := by
  cases i <;> cases hs
  rfl

/-- A reap clears the reservation of its id. -/
theorem ReapPc.not_starting (hs : ReapPc.take.step id me h i = some (h', out)) :
    id ∉ h'.supervisor.starting := by
  cases i <;> cases hs
  exact fun hid => Finset.ne_of_mem_erase hid rfl

theorem ReapPc.step_kill (hs : (ReapPc.kill child).step id me h i = some (h', out)) :
    ∃ deadline, out = some (.wait child deadline) := by
  cases i <;> cases hs
  exact ⟨_, rfl⟩

end

/-- The reap that is under way, and the ids that are still to be reaped. -/
structure Sweep where
  current : Option (String × ReapPc)
  rest : Finset String

def Task.sweep : Task → Option Sweep
  | .supervisor (.reap id pc) => some ⟨some (id, pc), ∅⟩
  | .supervisor (.reaped _) => some ⟨none, ∅⟩
  | .supervisor (.reapAll (.next rest)) => some ⟨none, rest⟩
  | .supervisor (.reapAll (.reap id pc rest)) => some ⟨some (id, pc), rest⟩
  | .supervisor (.reapAll .returned) => some ⟨none, ∅⟩
  | .startInstance c =>
    match c.pc with
    | .reap _ pc => some ⟨some (c.args.instanceId, pc), ∅⟩
    | .returned _ => some ⟨none, ∅⟩
    | _ => none
  | .shutdown c =>
    match c.pc with
    | .reap _ id pc => some ⟨some (id, pc), ∅⟩
    | .returned _ => some ⟨none, ∅⟩
    | _ => none
  | _ => none

namespace Sweep

/-- The id is not reaped yet. -/
def Pending (s : Sweep) (id : String) : Prop := id ∈ s.rest ∨ ∃ pc, s.current = some (id, pc)

/-- The sweep will kill this process of `id`, or has just done so. -/
def Covers (s : Sweep) (id : String) (child : Nat) : Prop :=
  id ∈ s.rest ∨ s.current = some (id, .take) ∨ ∃ pc, s.current = some (id, pc) ∧ pc.holds = some child

theorem Covers.pending {s : Sweep} {id : String} {child : Nat} (h : s.Covers id child) :
    s.Pending id := by
  rcases h with h | h | ⟨pc, h, -⟩
  · exact Or.inl h
  · exact Or.inr ⟨_, h⟩
  · exact Or.inr ⟨pc, h⟩

/-- One section of task `me`, which is in the middle of the sweep `s`. -/
inductive Step (me : Nat) (h h' : Host) (i : Choice) : Sweep → Sweep → Prop
  | next {id rest} (mem : id ∈ rest) (still : h' = h) :
      Step me h h' i ⟨none, rest⟩ ⟨some (id, .take), rest.erase id⟩
  | finish (still : h' = h) : Step me h h' i ⟨none, ∅⟩ ⟨none, ∅⟩
  | reap {id pc out rest} (step : pc.step id me h i = some (h', out)) :
      Step me h h' i ⟨some (id, pc), rest⟩ ⟨out.map fun pc => (id, pc), rest⟩

end Sweep

theorem Task.step_sweep {me : Nat} {h h' : Host} {t t' : Task} {i : Choice} {s : Sweep}
    (hs : t.step me h i = some (h', t')) (hsw : t.sweep = some s) :
    ∃ s', t'.sweep = some s' ∧ s.Step me h h' i s' := by
  cases t with
  | supervisor call =>
    obtain ⟨⟨g, call'⟩, hp, he⟩ := Option.map_eq_some_iff.mp hs
    cases he
    cases call with
    | reap id pc =>
      cases hsw
      obtain ⟨⟨g', out⟩, hstep, he⟩ := Option.map_eq_some_iff.mp hp
      cases he
      exact ⟨_, by cases out <;> rfl, .reap hstep⟩
    | reapAll pc =>
      obtain ⟨⟨g, pc'⟩, hp', he⟩ := Option.map_eq_some_iff.mp hp
      cases he
      cases pc with
      | collect => cases hsw
      | next rest =>
        cases hsw
        cases i <;> simp only [SupervisorCall.reapAllStep] at hp'
        case run =>
          split at hp' <;> cases hp'
          rename_i hrest
          subst hrest
          exact ⟨_, rfl, .finish rfl⟩
        case pickId id =>
          split at hp' <;> cases hp'
          rename_i hmem
          exact ⟨_, rfl, .next hmem rfl⟩
        all_goals cases hp'
      | reap id pc rest =>
        cases hsw
        obtain ⟨⟨g', out⟩, hstep, he⟩ := Option.map_eq_some_iff.mp hp'
        cases he
        exact ⟨_, by cases out <;> rfl, .reap hstep⟩
      | returned => cases i <;> cases hp'
    | reaped id => cases i <;> cases hp
    | _ => cases hsw
  | startInstance call =>
    obtain ⟨⟨g, call'⟩, hp, he⟩ := Option.map_eq_some_iff.mp hs
    cases he
    obtain ⟨args, pc, connectedAtSpawn, session⟩ := call
    cases pc with
    | reap err pc =>
      cases hsw
      obtain ⟨⟨g', out⟩, hstep, he⟩ := Option.map_eq_some_iff.mp hp
      cases he
      exact ⟨_, by cases out <;> rfl, .reap hstep⟩
    | returned result => cases i <;> cases hp
    | _ => cases hsw
  | shutdown call =>
    obtain ⟨⟨g, call'⟩, hp, he⟩ := Option.map_eq_some_iff.mp hs
    cases he
    obtain ⟨instanceId, pc⟩ := call
    cases pc with
    | reap queued id pc =>
      cases hsw
      obtain ⟨⟨g', out⟩, hstep, he⟩ := Option.map_eq_some_iff.mp hp
      cases he
      exact ⟨_, by cases out <;> rfl, .reap hstep⟩
    | returned queued => cases i <;> cases hp
    | _ => cases hsw
  | _ => cases hsw

theorem Task.phase_of_sweep {t : Task} {s : Sweep} (h : t.sweep = some s) :
    t.phase = (s.current.elim .idle fun r => r.2.phase r.1) := by
  cases t with
  | supervisor call =>
    cases call with
    | reapAll pc => cases pc <;> cases h <;> rfl
    | _ => cases h <;> rfl
  | startInstance call =>
    obtain ⟨args, pc, connectedAtSpawn, session⟩ := call
    cases pc <;> cases h <;> rfl
  | shutdown call =>
    obtain ⟨instanceId, pc⟩ := call
    cases pc <;> cases h <;> rfl
  | _ => cases h

/-- A section of a sweep lets go of a live process of `id` only when it has exited, or when
another reap has killed it. -/
theorem Sweep.Step.covers {me : Nat} {h h' : Host} {i : Choice} {s s' : Sweep}
    (hstep : s.Step me h h' i s') {old : Finset Nat}
    (taking : ∀ id, s.current = some (id, .take) →
      (h.supervisor.children.lookup id = none ∧ h.running id = ∅) ∨
        ∃ child, h.supervisor.children.lookup id = some child ∧ h.accounts old (· = id) = true)
    (dead : ∀ id child deadline, s.current = some (id, .wait child deadline) → h.alive child = false)
    {child : Nat} {p : Process} (hcov : s.Covers p.instanceId child)
    (hp : h.process.lookup child = some p) (hup : p.alive = true) :
    s'.Covers p.instanceId child ∨
      (child ∈ old ∧ p.killed = true ∧ ∃ pc, s'.current = some (p.instanceId, pc)) := by
  cases hstep with
  | @next id' rest mem still =>
    refine .inl ?_
    rcases hcov with hmem | hcur | ⟨pc, hcur, -⟩
    · by_cases hid : p.instanceId = id'
      · exact Or.inr (Or.inl (by rw [hid]))
      · exact Or.inl (Finset.mem_erase_of_ne_of_mem hid hmem)
    · cases hcur
    · cases hcur
  | finish still => exact .inl hcov
  | @reap id' pc out rest step =>
    rcases hcov with hmem | hcur | ⟨pc', hcur, hholds⟩
    · exact .inl (.inl hmem)
    · obtain ⟨rfl, rfl⟩ := Prod.mk.inj (Option.some.inj hcur)
      have hrun : child ∈ h.running p.instanceId := Host.mem_running.mpr ⟨p, hp, hup, rfl⟩
      rcases taking p.instanceId rfl with ⟨-, hnone⟩ | ⟨taken, hl, haccounts⟩
      · rw [hnone] at hrun
        exact absurd hrun (Finset.notMem_empty _)
      · have hout : out = some (.kill taken) := by rw [ReapPc.step_take step, hl]; rfl
        subst hout
        rcases Host.stored_or_killed haccounts hp hup (decide_eq_true rfl) with hstored | hkilled
        · obtain rfl := Option.some.inj (hl.symm.trans hstored)
          exact .inl (.inr (.inr ⟨_, rfl, rfl⟩))
        · exact .inr ⟨hkilled.1, hkilled.2, _, rfl⟩
    · obtain ⟨rfl, rfl⟩ := Prod.mk.inj (Option.some.inj hcur)
      refine .inl ?_
      cases pc with
      | take => cases hholds
      | kill killed =>
        obtain ⟨deadline, rfl⟩ := ReapPc.step_kill step
        exact Or.inr (Or.inr ⟨_, rfl, hholds⟩)
      | wait killed deadline =>
        cases hholds
        have hdead := dead p.instanceId child deadline rfl
        rw [Host.alive_iff.mpr ⟨p, hp, hup⟩] at hdead
        cases hdead

theorem Sweep.Step.not_starting {me : Nat} {h h' : Host} {i : Choice} {s s' : Sweep} {id : String}
    (hstep : s.Step me h h' i s') (htake : s.current = some (id, .take)) :
    id ∉ h'.supervisor.starting := by
  cases hstep with
  | next | finish => cases htake
  | reap step =>
    obtain ⟨rfl, rfl⟩ := Prod.mk.inj (Option.some.inj htake)
    exact ReapPc.not_starting step

/-- A reap of an id is over when the child has exited. -/
theorem Sweep.Step.pending {me : Nat} {h h' : Host} {i : Choice} {s s' : Sweep} {id : String}
    (hstep : s.Step me h h' i s') (hp : s.Pending id)
    (htake : s.current = some (id, .take) → h.supervisor.children.lookup id ≠ none)
    (hwait : ∀ child deadline, s.current ≠ some (id, .wait child deadline)) : s'.Pending id := by
  cases hstep with
  | @next id' rest mem still =>
    rcases hp with hmem | ⟨pc, hcur⟩
    · by_cases hid : id = id'
      · subst hid
        exact Or.inr ⟨_, rfl⟩
      · exact Or.inl (Finset.mem_erase_of_ne_of_mem hid hmem)
    · cases hcur
  | finish still => exact hp
  | @reap id' pc out rest step =>
    rcases hp with hmem | ⟨pc', hcur⟩
    · exact Or.inl hmem
    · obtain ⟨rfl, rfl⟩ := Prod.mk.inj (Option.some.inj hcur)
      cases pc with
      | take =>
        obtain ⟨child, hl⟩ := Option.ne_none_iff_exists'.mp (htake rfl)
        have hout : out = some (.kill child) := by rw [ReapPc.step_take step, hl]; rfl
        subst hout
        exact Or.inr ⟨_, rfl⟩
      | kill child =>
        obtain ⟨deadline, rfl⟩ := ReapPc.step_kill step
        exact Or.inr ⟨_, rfl⟩
      | wait child deadline => exact absurd rfl (hwait child deadline)

/-! ## What came before the reap -/

namespace SpawnEffect

variable {me : Nat} {h h' : Host} {p p' : Phase} {id : String}

/-- What is past stays past: a task makes one call. -/
theorem past (he : SpawnEffect me h h' p p') (hp : p.Past) : p'.Past := by
  cases he with
  | quiet supervisor process moves =>
    cases moves with
    | stays => exact hp
    | checked | taken | refused => exact hp.elim
    | _ => trivial
  | take => cases hl : h.supervisor.children.lookup _ <;> trivial
  | reserve | spawn => exact hp.elim
  | _ => trivial

theorem reserves_or_past (he : SpawnEffect me h h' p p') (hp : p.reserves = some id) :
    p'.reserves = some id ∨ p'.Past := by
  cases he with
  | quiet supervisor process moves =>
    rw [SpawnEffect.reserves_moves moves]
    exact Or.inl hp
  | spawn => exact Or.inl hp
  | clear | store => exact Or.inr trivial
  | _ => cases hp

end SpawnEffect

/-! ## Cleared reservations -/

/-- The reservation of task `t` has been cleared: when the id is reserved, another task has
reserved it. -/
structure Cleared (c : Config Host Task) (t : Nat) (id : String) : Prop where
  reserves : (phases c t).reserves = some id
  other : id ∈ c.shared.supervisor.starting → ∃ u, u ≠ t ∧ (phases c u).reserves = some id

theorem Cleared.fire {c c' : Config Host Task} {me t : Nat} {i : Choice} {id : String}
    (hc : Cleared c t id) (hf : proxy.fire c me i = some c') :
    (phases c' t).Past ∨ Cleared c' t id := by
  obtain ⟨he, hother⟩ := fire_spawn hf
  have hstarting : id ∈ c'.shared.supervisor.starting →
      ∃ u, u ≠ t ∧ (phases c' u).reserves = some id := by
    intro hid
    rcases he.starting_cases hid with ⟨hold, hkeeps⟩ | ⟨hno, hnew⟩
    · obtain ⟨u, hne, hu⟩ := hc.other hold
      refine ⟨u, hne, ?_⟩
      by_cases hume : u = me
      · subst hume
        exact hkeeps hu
      · rw [hother u hume]
        exact hu
    · refine ⟨me, ?_, hnew⟩
      rintro rfl
      rw [hc.reserves] at hno
      cases hno
  by_cases ht : t = me
  · subst ht
    rcases he.reserves_or_past hc.reserves with hkeeps | hpast
    · exact Or.inr ⟨hkeeps, hstarting⟩
    · exact Or.inl hpast
  · exact Or.inr ⟨by rw [hother t ht]; exact hc.reserves, hstarting⟩

/-- A task that spawns a process does so by its choice. -/
theorem StartPc.spawns_of_step {args : StartArgs} {me : Nat} {h h' : Host} {pc pc' : StartPc}
    {i : Choice} {id : String} {child : Nat} (hs : pc.step args me h i = some (h', .inl pc'))
    (hpc : pc.phase args.instanceId = .reserved id)
    (hpc' : pc'.phase args.instanceId = .spawned id child) : i.spawns = true := by
  cases step_section hs with
  | spawned => rfl
  | checked => cases hpc
  | reserved | createDir | seedBook | seedSettings | failed => cases hpc'

theorem Task.spawns_of_step {me : Nat} {h h' : Host} {t t' : Task} {i : Choice} {id : String}
    {child : Nat} (hs : t.step me h i = some (h', t')) (ht : t.phase = .reserved id)
    (ht' : t'.phase = .spawned id child) : i.spawns = true := by
  cases t with
  | supervisor call =>
    obtain ⟨⟨g, call'⟩, hp, he⟩ := Option.map_eq_some_iff.mp hs
    cases he
    cases call with
    | start args pc =>
      obtain ⟨⟨g', out⟩, hstep, he⟩ := Option.map_eq_some_iff.mp hp
      cases he
      cases out with
      | inl pc' => exact StartPc.spawns_of_step hstep ht ht'
      | inr result => cases ht'
    | reap id pc => cases pc <;> cases ht
    | reapAll pc =>
      cases pc with
      | reap id pc rest => cases pc <;> cases ht
      | _ => cases ht
    | _ => cases ht
  | startInstance call =>
    obtain ⟨⟨g, call'⟩, hp, he⟩ := Option.map_eq_some_iff.mp hs
    cases he
    obtain ⟨args, pc, connectedAtSpawn, session⟩ := call
    cases pc with
    | start pc =>
      obtain ⟨⟨g', out⟩, hstep, he⟩ := Option.map_eq_some_iff.mp hp
      cases he
      cases out with
      | inl pc' => exact StartPc.spawns_of_step hstep ht ht'
      | inr result => cases result <;> cases ht'
    | reap err pc => cases pc <;> cases ht
    | _ => cases ht
  | shutdown call =>
    obtain ⟨instanceId, pc⟩ := call
    cases pc with
    | reap queued id pc => cases pc <;> cases ht
    | _ => cases ht
  | _ => cases ht


/-- A process of a `start` that had reserved its id before `c₁`. -/
def Old (c₁ : Config Host Task) (child : Nat) (p : Process) : Prop :=
  c₁.shared.process.lookup child ≠ none ∨ (phases c₁ p.owner).reserves = some p.instanceId

theorem Old.becomes {c₁ : Config Host Task} {child : Nat} {p p' : Process} (h : Old c₁ child p')
    (hb : p.Becomes p') : Old c₁ child p := by
  unfold Old at h ⊢
  rwa [← hb.owner, ← hb.instanceId]

/-- What holds in every configuration `c` that a run from `c₁` reaches. -/
structure Since (c₁ c : Config Host Task) : Prop where
  process : ∀ child, c₁.shared.process.lookup child ≠ none → c.shared.process.lookup child ≠ none
  reserved : ∀ t id, (phases c₁ t).reserves = some id →
    (phases c t).reserves = some id ∨ (phases c t).Past

namespace Since

theorem refl (c₁ : Config Host Task) : Since c₁ c₁ :=
  ⟨fun _ h => h, fun _ _ h => Or.inl h⟩

theorem step {c₁ c c' : Config Host Task} {me : Nat} {i : Choice} (since : Since c₁ c)
    (hf : proxy.fire c me i = some c') : Since c₁ c' := by
  obtain ⟨he, hother⟩ := fire_spawn hf
  refine ⟨?_, ?_⟩
  · intro child h₁
    obtain ⟨p, hp⟩ := Option.ne_none_iff_exists'.mp (since.process child h₁)
    obtain ⟨p', hp', -⟩ := he.process_stays hp
    rw [hp']
    exact Option.some_ne_none p'
  · intro t id h₁
    by_cases ht : t = me
    · subst ht
      rcases since.reserved t id h₁ with hr | hpast
      · exact he.reserves_or_past hr
      · exact Or.inr (he.past hpast)
    · rw [hother t ht]
      exact since.reserved t id h₁

end Since

/-! ## The invariant -/

/-- The sweep of a task accounts for every live process of an id in `S` whose `start` had
reserved before `c₁`. Another reap may have killed it while `due` holds of the id. -/
structure SweepInv (S due : String → Prop) (c₁ : Config Host Task) (s : Sweep)
    (c : Config Host Task) : Prop where
  past : ∀ t id, S id → (phases c₁ t).reserves = some id →
    (phases c t).Past ∨ s.current = some (id, .take) ∨ Cleared c t id
  covers : ∀ child p, c.shared.process.lookup child = some p → S p.instanceId → p.alive = true →
    Old c₁ child p → s.Covers p.instanceId child ∨
      (child ∈ processes c₁ ∧ p.killed = true ∧ due p.instanceId)

namespace SweepInv

variable {S due due' : String → Prop} {c₁ c c' : Config Host Task} {me t : Nat} {i : Choice}
  {s s' : Sweep}

/-- A process that is live after a step was live before, or an old task has just
spawned it because the sweep has not reached its id. -/
theorem live_cases (inv : SweepInv S due c₁ s c) (since : Since c₁ c)
    (guard : spawnsReserved c₁ c t i) (hf : proxy.fire c t i = some c') {child : Nat} {p' : Process}
    (hp' : c'.shared.process.lookup child = some p') (hS : S p'.instanceId) (hup : p'.alive = true)
    (hold : Old c₁ child p') :
    (∃ p, c.shared.process.lookup child = some p ∧ p.alive = true ∧ p.Becomes p' ∧
        (s.Covers p.instanceId child ∨
          (child ∈ processes c₁ ∧ p.killed = true ∧ due p.instanceId))) ∨
      ¬ (phases c t).Past ∧ s.current = some (p'.instanceId, .take) := by
  obtain ⟨he, -⟩ := fire_spawn hf
  rcases he.process_cases hp' with ⟨p, hp, hb⟩ | ⟨id, pid, hme, hme', unused, rfl⟩
  · exact Or.inl ⟨p, hp, hb.alive hup, hb,
      inv.covers child p hp (by rwa [← hb.instanceId]) (hb.alive hup) (hold.becomes hb)⟩
  · have hpast : ¬ (phases c t).Past := by rw [hme]; exact fun h => h
    rcases hold with h₁ | h₁
    · exact absurd unused (since.process child h₁)
    · refine Or.inr ⟨hpast, ?_⟩
      rcases inv.past t id hS h₁ with h | htake | hcleared
      · exact absurd h hpast
      · exact htake
      · have hspawns := Task.spawns_of_step (fire_task hf).1 hme hme'
        obtain ⟨hin, halone⟩ := guard id hme h₁ hspawns
        obtain ⟨u, hne, hu⟩ := hcleared.other hin
        exact absurd hu (halone u hne)

theorem past_fire (hf : proxy.fire c t i = some c') {t' : Nat} (h : (phases c t').Past) :
    (phases c' t').Past := by
  obtain ⟨he, hother⟩ := fire_spawn hf
  by_cases ht : t' = t
  · subst ht
    exact he.past h
  · rwa [hother t' ht]

/-- A step of another task. -/
theorem other (inv : SweepInv S due c₁ s c) (since : Since c₁ c) (guard : spawnsReserved c₁ c t i)
    (hf : proxy.fire c t i = some c') : SweepInv S due c₁ s c' := by
  refine ⟨fun t' id hS h₁ => ?_, fun child p' hp' hS hup hold => ?_⟩
  · rcases inv.past t' id hS h₁ with h | htake | hcleared
    · exact Or.inl (past_fire hf h)
    · exact Or.inr (Or.inl htake)
    · exact (hcleared.fire hf).imp_right Or.inr
  · rcases inv.live_cases since guard hf hp' hS hup hold with
      ⟨p, -, -, hb, hcov | ⟨hmem, hkilled, hdue⟩⟩ | ⟨-, htake⟩
    · rw [hb.instanceId]
      exact Or.inl hcov
    · rw [hb.instanceId]
      exact Or.inr ⟨hmem, hb.killed hkilled, hdue⟩
    · exact Or.inl (Or.inr (Or.inl htake))

/-- A step of the sweep itself. -/
theorem own (inv : SweepInv S due c₁ s c) (since : Since c₁ c)
    (guard : reapsWhole c₁ c me = true) (spawns : spawnsReserved c₁ c me i)
    (hsw : (c.task me).sweep = some s) (hf : proxy.fire c me i = some c')
    (hstep : s.Step me c.shared c'.shared i s')
    (hdue : ∀ child p, c.shared.process.lookup child = some p → p.alive = true →
      p.killed = true → child ∈ processes c₁ → due p.instanceId → due' p.instanceId)
    (hcurrent : ∀ id pc, s'.current = some (id, pc) → due' id) :
    SweepInv S due' c₁ s' c' := by
  have hph : phases c me = s.current.elim .idle fun r => r.2.phase r.1 := Task.phase_of_sweep hsw
  have hpast : (phases c me).Past := by
    rw [hph]
    obtain ⟨current, rest⟩ := s
    cases current with
    | none => trivial
    | some r => obtain ⟨id, pc⟩ := r; cases pc <;> trivial
  have htaking : ∀ id, s.current = some (id, .take) → phases c me = .taking id := by
    intro id hcur
    rw [hph, hcur]
    rfl
  have hwaiting : ∀ id child deadline, s.current = some (id, .wait child deadline) →
      phases c me = .waiting id child := by
    intro id child deadline hcur
    rw [hph, hcur]
    rfl
  refine ⟨fun t id hS h₁ => ?_, fun child p' hp' hS hup hold => ?_⟩
  · rcases inv.past t id hS h₁ with h | htake | hcleared
    · exact Or.inl (past_fire hf h)
    · -- the sweep takes the child of `id`, and clears the reservations of `id`
      rcases since.reserved t id h₁ with hr | h
      · have hcleared : Cleared c' t id := by
          have hother := (fire_spawn hf).2
          have hne : t ≠ me := by
            rintro rfl
            rw [htaking id htake] at hr
            cases hr
          refine ⟨by rw [hother t hne]; exact hr, fun hin => ?_⟩
          exact absurd hin (hstep.not_starting htake)
        exact Or.inr (Or.inr hcleared)
      · exact Or.inl (past_fire hf h)
    · exact (hcleared.fire hf).imp_right Or.inr
  · rcases inv.live_cases since spawns hf hp' hS hup hold with
      ⟨p, hp, hup', hb, hcov | ⟨hmem, hkilled, hd⟩⟩ | ⟨hno, -⟩
    · rw [hb.instanceId]
      rcases hstep.covers (fun id hcur => reapsWhole_taking guard (htaking id hcur))
        (fun id child deadline hcur => (reapsWhole_waiting guard (hwaiting id child deadline hcur)).1)
        hcov hp hup' with hcov' | ⟨hmem, hkilled, pc, hcur⟩
      · exact Or.inl hcov'
      · exact Or.inr ⟨hmem, hb.killed hkilled, hcurrent _ pc hcur⟩
    · rw [hb.instanceId]
      exact Or.inr ⟨hmem, hb.killed hkilled, hdue child p hp hup' hkilled hmem hd⟩
    · exact absurd hpast hno

end SweepInv

/-- The reap of `id` by task `me`, and what came before it in `c₁`. -/
structure Reaping (id : String) (me : Nat) (c₁ c : Config Host Task) : Prop where
  since : Since c₁ c
  sweep : ∃ s, (c.task me).sweep = some s ∧ SweepInv (· = id) s.Pending c₁ s c

namespace Reaping

variable {id : String} {me t : Nat} {c₁ c c' : Config Host Task} {i : Choice}

theorem fire (inv : Reaping id me c₁ c) (guard : ReapsWhole me c₁ c t i)
    (hf : proxy.fire c t i = some c') : Reaping id me c₁ c' := by
  refine ⟨inv.since.step hf, ?_⟩
  obtain ⟨s, hsw, hinv⟩ := inv.sweep
  obtain ⟨hs, hother⟩ := fire_task hf
  by_cases ht : t = me
  · subst ht
    obtain ⟨s', hsw', hstep⟩ := Task.step_sweep hs hsw
    have hwhole : reapsWhole c₁ c t = true := guard.1 rfl
    have hph : phases c t = s.current.elim .idle fun r => r.2.phase r.1 := Task.phase_of_sweep hsw
    refine ⟨s', hsw', hinv.own inv.since hwhole guard.2 hsw hf hstep ?_ fun id' pc hcur => ?_⟩
    · intro child p hp hup hkilled hmem hpending
      refine hstep.pending hpending (fun htake => ?_) fun child' deadline hwait => ?_
      · rw [htake] at hph
        rcases reapsWhole_taking hwhole hph with ⟨-, hnone⟩ | ⟨stored, hl, -⟩
        · have hrun : child ∈ c.shared.running p.instanceId :=
            Host.mem_running.mpr ⟨p, hp, hup, rfl⟩
          rw [hnone] at hrun
          exact absurd hrun (Finset.notMem_empty _)
        · rw [hl]
          exact Option.some_ne_none stored
      · rw [hwait] at hph
        have hsettled := (reapsWhole_waiting hwhole hph).2
        have hno := Host.not_killed_of_settled hsettled hp hup (decide_eq_true rfl) hmem
        rw [hkilled] at hno
        cases hno
    · exact Or.inr ⟨pc, hcur⟩
  · rw [hother me (Ne.symm ht)]
    exact ⟨s, hsw, hinv.other inv.since guard.2 hf⟩

end Reaping

/-- The task has not returned from `reap_all`. -/
def Busy (c : Config Host Task) (me : Nat) : Prop := c.task me ≠ .supervisor (.reapAll .returned)

theorem Task.next_of_returned {me : Nat} {h h' : Host} {t : Task} {i : Choice}
    (hs : t.step me h i = some (h', .supervisor (.reapAll .returned))) :
    t = .supervisor (.reapAll (.next ∅)) := by
  cases t with
  | supervisor call =>
    obtain ⟨⟨g, call'⟩, hp, he⟩ := Option.map_eq_some_iff.mp hs
    cases he
    cases call with
    | reapAll pc =>
      obtain ⟨⟨g', pc'⟩, hp', he⟩ := Option.map_eq_some_iff.mp hp
      cases he
      cases pc with
      | collect => cases i <;> cases hp'
      | next rest =>
        cases i <;> simp only [SupervisorCall.reapAllStep] at hp'
        case run =>
          split at hp' <;> cases hp'
          rename_i hrest
          rw [hrest]
        case pickId id => split at hp' <;> cases hp'
        all_goals cases hp'
      | reap id pc rest =>
        obtain ⟨⟨g', out⟩, hstep, he⟩ := Option.map_eq_some_iff.mp hp'
        cases out <;> cases he
      | returned => cases i <;> cases hp'
    | start args pc =>
      obtain ⟨⟨g', out⟩, -, he⟩ := Option.map_eq_some_iff.mp hp
      cases out <;> cases he
    | reap id pc =>
      obtain ⟨⟨g', out⟩, -, he⟩ := Option.map_eq_some_iff.mp hp
      cases out <;> cases he
    | isAlive id => cases i <;> cases hp
    | _ => cases i <;> cases hp
  | _ =>
    obtain ⟨r, -, he⟩ := Option.map_eq_some_iff.mp hs
    cases he

/-- The `reap_all` of task `me`, and what came before it in `c₁`. -/
structure ReapingAll (me : Nat) (c₁ c : Config Host Task) : Prop where
  since : Since c₁ c
  began : c₁.task me = .supervisor (.reapAll .collect)
  stage : c.task me = .supervisor (.reapAll .collect) ∨
    ∃ s, (c.task me).sweep = some s ∧ SweepInv (fun _ => True) (fun _ => Busy c me) c₁ s c

namespace ReapingAll

variable {me t : Nat} {c₁ c c' : Config Host Task} {i : Choice}

/-- `reap_all` sees every live process that nobody has killed, and nobody holds a
reservation. -/
theorem collect (inv : ReapingAll me c₁ c) (guard : ReapsWhole me c₁ c me i)
    (hme : c.task me = .supervisor (.reapAll .collect)) (hf : proxy.fire c me i = some c') :
    ∃ s, (c'.task me).sweep = some s ∧
      SweepInv (fun _ => True) (fun _ => Busy c' me) c₁ s c' := by
  obtain ⟨hstarting, haccounts⟩ := reapsWhole_collect (guard.1 rfl) hme
  have hnext : c'.shared = c.shared ∧
      c'.task me = .supervisor (.reapAll (.next c.shared.supervisor.children.keys)) := by
    obtain ⟨g, l, hs, rfl⟩ := Pool.fire_eq_some.mp hf
    change (c.task me).step me c.shared i = some (g, l) at hs
    rw [hme] at hs
    cases i <;> cases hs
    exact ⟨rfl, Function.update_self ..⟩
  obtain ⟨hshared, hme'⟩ := hnext
  refine ⟨⟨none, c.shared.supervisor.children.keys⟩, by rw [hme']; rfl, ?_, ?_⟩
  · intro t id _ h₁
    rcases (inv.since.step hf).reserved t id h₁ with hr | hpast
    · refine Or.inr (Or.inr ⟨hr, fun hin => ?_⟩)
      rw [hshared, hstarting] at hin
      exact absurd hin (Finset.notMem_empty id)
    · exact Or.inl hpast
  · intro child p hp _ hup _
    rw [hshared] at hp
    rcases Host.stored_or_killed haccounts hp hup rfl with hstored | ⟨hmem, hkilled⟩
    · exact Or.inl (Or.inl (HashMap.mem_keys_iff.mpr ⟨child, hstored⟩))
    · refine Or.inr ⟨hmem, hkilled, ?_⟩
      rw [Busy, hme']
      exact fun h => by cases h

theorem fire (inv : ReapingAll me c₁ c) (guard : ReapsWhole me c₁ c t i)
    (hf : proxy.fire c t i = some c') : ReapingAll me c₁ c' := by
  refine ⟨inv.since.step hf, inv.began, ?_⟩
  obtain ⟨hs, hother⟩ := fire_task hf
  by_cases ht : t = me
  · subst ht
    rcases inv.stage with hme | ⟨s, hsw, hinv⟩
    · exact Or.inr (inv.collect guard hme hf)
    · obtain ⟨s', hsw', hstep⟩ := Task.step_sweep hs hsw
      have hwhole : reapsWhole c₁ c t = true := guard.1 rfl
      refine Or.inr ⟨s', hsw', hinv.own inv.since hwhole guard.2 hsw hf hstep ?_ ?_⟩
      · intro child p hp hup hkilled hmem _ hreturned
        rw [hreturned] at hs
        have hsettled := reapsWhole_finish hwhole (Task.next_of_returned hs) inv.began
        have hno := Host.not_killed_of_settled hsettled hp hup rfl hmem
        rw [hkilled] at hno
        cases hno
      · intro id pc hcur hreturned
        rw [hreturned] at hsw'
        obtain rfl := Option.some.inj hsw'
        cases hcur
  · have htask := hother me (Ne.symm ht)
    rcases inv.stage with hme | ⟨s, hsw, hinv⟩
    · exact Or.inl (htask.trans hme)
    · refine Or.inr ⟨s, by rw [htask]; exact hsw, ?_⟩
      rw [Busy, htask]
      exact hinv.other inv.since guard.2 hf

end ReapingAll

/-! ## The result -/

/-- In `c₂` no process of a `start(id)` that had reserved before `c₁` is alive. -/
def Gone (c₁ c₂ : Config Host Task) (id : String) : Prop :=
  ∀ child p, c₂.shared.process.lookup child = some p → p.instanceId = id → p.alive = true →
    ¬ Old c₁ child p

/-- What the reap of task `me` that began in `c₁` has done when it has returned in `c₂`. -/
structure ReapEffective (me : Nat) (c₁ c₂ : Config Host Task) : Prop where
  reap : ∀ id rest s, (c₁.task me).sweep = some ⟨some (id, .take), rest⟩ →
    (c₂.task me).sweep = some s → ¬ s.Pending id → Gone c₁ c₂ id
  reapAll : c₁.task me = .supervisor (.reapAll .collect) →
    c₂.task me = .supervisor (.reapAll .returned) → ∀ id, Gone c₁ c₂ id

/-- **Reaping is effective.** Whatever happened before the reap, along every run from its
beginning in which it misses no process and a killed child exits within the wait. -/
theorem reapEffective_of_reapsWhole {me : Nat} {c₁ c₂ : Config Host Task}
    (run : proxy.Reach (ReapsWhole me c₁) c₁ c₂) : ReapEffective me c₁ c₂ := by
  refine ⟨?_, ?_⟩
  · intro id rest s h₁ h₂ hdone
    have start : Reaping id me c₁ c₁ := by
      refine ⟨.refl c₁, _, h₁, ?_, ?_⟩
      · rintro t id' rfl -
        exact Or.inr (Or.inl rfl)
      · rintro child p - rfl - -
        exact Or.inl (Or.inr (Or.inl rfl))
    have inv : Reaping id me c₁ c₂ :=
      run.invariant start fun _ _ _ _ inv guard hf => inv.fire guard hf
    obtain ⟨s', hsw, hinv⟩ := inv.sweep
    obtain rfl := Option.some.inj (h₂.symm.trans hsw)
    intro child p hp hid hup hold
    rw [← hid] at hdone
    rcases hinv.covers child p hp hid hup hold with hcov | ⟨-, -, hpending⟩
    · exact hdone hcov.pending
    · exact hdone hpending
  · intro h₁ h₂ id child p hp _ hup hold
    have inv : ReapingAll me c₁ c₂ :=
      run.invariant ⟨.refl c₁, h₁, Or.inl h₁⟩ fun _ _ _ _ inv guard hf => inv.fire guard hf
    rcases inv.stage with hme | ⟨s', hsw, hinv⟩
    · rw [h₂] at hme
      cases hme
    · rw [h₂] at hsw
      obtain rfl := Option.some.inj hsw
      rcases hinv.covers child p hp trivial hup hold with hcov | ⟨-, -, hbusy⟩
      · rcases hcov.pending with h | ⟨pc, h⟩
        · exact absurd h (Finset.notMem_empty _)
        · cases h
      · exact hbusy h₂

/-- A `start` and a reap of `a`, a `reap_all`, and a `start` of `b`. -/
def twoReaps : Config Host Task :=
  bootCalls [.start { instanceId := "a" } (.check false), .reap "a" .take, .reapAll .collect,
    .start { instanceId := "b" } (.check false)]

/-- A `reap_all` collects its ids while the reap of `a` has killed its child. It kills the
child of `b` itself, and both have exited when it returns. -/
theorem reapEffective_reapAll :
    ∃ c₁ c₂, proxy.Reach Pool.anyStep twoReaps c₁ ∧
      (c₁.task 2 = .supervisor (.reapAll .collect) ∧ c₁.shared.running "a" = {0} ∧
        c₁.shared.running "b" = {1}) ∧
      proxy.Reach (ReapsWhole 2 c₁) c₁ c₂ ∧
      (c₂.task 2 = .supervisor (.reapAll .returned) ∧ c₂.shared.running "a" = ∅ ∧
        c₂.shared.running "b" = ∅) ∧ ReapEffective 2 c₁ c₂ := by
  obtain ⟨c₁, c₂, run₁, h₁, run₂, h₂⟩ := proxy.exists_reach_via Pool.anyStep
    (fun c₁ c t i => (t = 2 → reapsWhole c₁ c 2 = true) ∧ i.spawns = false) twoReaps
    (spawnRun 0 0 ++ [(0, .run)] ++ spawnRun 3 1 ++ [(3, .run), (1, .run), (1, .run)])
    [(2, .run), (2, .pickId "b"), (2, .run), (2, .run), (4, .exited 1), (2, .run), (4, .exited 0),
      (2, .run)]
    (fun c => c.task 2 = .supervisor (.reapAll .collect) ∧ c.shared.running "a" = {0} ∧
      c.shared.running "b" = {1})
    (fun c => c.task 2 = .supervisor (.reapAll .returned) ∧ c.shared.running "a" = ∅ ∧
      c.shared.running "b" = ∅)
    (by decide +kernel)
  have run₂' : proxy.Reach (ReapsWhole 2 c₁) c₁ c₂ := by
    refine run₂.mono fun c t i guard => ⟨guard.1, fun id _ _ hspawns => ?_⟩
    rw [guard.2] at hspawns
    cases hspawns
  exact ⟨c₁, c₂, run₁, h₁, run₂', h₂, reapEffective_of_reapsWhole run₂'⟩

/-- The reap falls between the reservation and the spawn: it returns, and the child of
that `start` is spawned and stored. -/
theorem not_reapEffective_mid_start :
    ¬ ∀ me c₀ c₁ c₂, Boot c₀ → proxy.Reach Pool.anyStep c₀ c₁ → proxy.Reach Pool.anyStep c₁ c₂ →
      ReapEffective me c₁ c₂ := by
  intro hall
  obtain ⟨c₁, c₂, run₁, ⟨htake, hreserves⟩, run₂, hreaped, hp⟩ :=
    proxy.exists_reach_via Pool.anyStep (fun _ => Pool.anyStep) startReapStart [(0, .run), (0, .run)]
      [(1, .run), (0, .run), (0, .run), (0, .run), (0, .spawned 0 1), (0, .run)]
      (fun c => c.task 1 = .supervisor (.reap "a" .take) ∧ (phases c 0).reserves = some "a")
      (fun c => c.task 1 = .supervisor (.reaped "a") ∧
        c.shared.process.lookup 0 = some { owner := 0, instanceId := "a", pid := 1 })
      (by decide +kernel)
  have effective := hall 1 _ c₁ c₂ boot_startReapStart run₁ run₂
  refine effective.reap "a" ∅ ⟨none, ∅⟩ (by rw [htake]; rfl) (by rw [hreaped]; rfl) ?_ 0 _ hp rfl
    rfl (Or.inr hreserves)
  rintro (h | ⟨pc, h⟩)
  · exact Finset.notMem_empty _ h
  · cases h

end CsmProxy
