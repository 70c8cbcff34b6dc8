import CsmProxy.Spawn.Phases

/-!
# Reservations

What one section can do to the reservations, to the table of children and to the
processes, and the law of the reservations: as long as no `reap` of an id falls into
a `start` of that id, a reservation belongs to one task. Nobody can take it away then
but the task itself.
-/

namespace CsmProxy

open Foundations

namespace SpawnEffect

variable {me : Nat} {h h' : Host} {p p' : Phase} {id : String} {child : Nat}

theorem reserves_moves (h : p.Moves p') : p'.reserves = p.reserves := by
  cases h <;> rfl

/-- A reservation is old, or it has just been granted. -/
theorem reserves (he : SpawnEffect me h h' p p') (hr : p'.reserves = some id) :
    p.reserves = some id ∨ p = .reserving id ∧ p' = .reserved id ∧
      h.supervisor.reserve h.alive id = (true, h'.supervisor) ∧ h'.process = h.process := by
  cases he with
  | quiet supervisor process moves => exact Or.inl ((reserves_moves moves).symm.trans hr)
  | reserve granted process =>
    obtain rfl := Option.some.inj hr
    exact Or.inr ⟨rfl, rfl, granted, process⟩
  | spawn => exact Or.inl hr
  | take => cases hl : h.supervisor.children.lookup _ <;> (rw [hl] at hr; cases hr)
  | _ => cases hr

/-- A task that keeps its reservation stays where it is or spawns its child. -/
theorem reserves_stays (he : SpawnEffect me h h' p p') (hp : p.reserves = some id)
    (hp' : p'.reserves = some id) : p' = p ∨ p = .reserved id := by
  cases he with
  | quiet supervisor process moves =>
    cases moves with
    | stays => exact Or.inl rfl
    | _ => cases hp
  | spawn =>
    obtain rfl := Option.some.inj hp
    exact Or.inr rfl
  | _ => cases hp <;> cases hp'

/-- A reservation goes when its task gives it up, and when somebody reaps the id. -/
theorem mem_starting (he : SpawnEffect me h h' p p') (hid : id ∈ h.supervisor.starting) :
    id ∈ h'.supervisor.starting ∨ (p.reserves = some id ∧ p'.reserves = none) ∨ p = .taking id := by
  cases he with
  | quiet supervisor =>
    refine Or.inl ?_
    rcases supervisor with hs | ⟨id', hs⟩
    · rw [hs]
      exact hid
    · rw [hs, Supervisor.childAlive_starting]
      exact hid
  | reserve granted =>
    rw [(Supervisor.reserve_eq_true granted).2.1]
    exact Or.inl (Finset.mem_insert_of_mem hid)
  | @clear id' supervisor | @store id' _ supervisor =>
    by_cases hne : id = id'
    · subst hne
      exact Or.inr (Or.inl ⟨rfl, rfl⟩)
    · rw [supervisor]
      exact Or.inl (Finset.mem_erase_of_ne_of_mem hne hid)
  | @take id' supervisor =>
    by_cases hne : id = id'
    · subst hne
      exact Or.inr (Or.inr rfl)
    · rw [supervisor]
      exact Or.inl (Finset.mem_erase_of_ne_of_mem hne hid)
  | spawn supervisor | kill supervisor | exited supervisor =>
    rw [supervisor]
    exact Or.inl hid

/-- A reservation in the table is old and not given up, or it has just been granted. -/
theorem starting_cases (he : SpawnEffect me h h' p p') (hid : id ∈ h'.supervisor.starting) :
    (id ∈ h.supervisor.starting ∧ (p.reserves = some id → p'.reserves = some id)) ∨
      (p.reserves = none ∧ p'.reserves = some id) := by
  cases he with
  | quiet supervisor process moves =>
    refine Or.inl ⟨?_, fun hr => (reserves_moves moves).trans hr⟩
    rcases supervisor with hs | ⟨id', hs⟩
    · rwa [hs] at hid
    · rwa [hs, Supervisor.childAlive_starting] at hid
  | reserve granted =>
    rw [(Supervisor.reserve_eq_true granted).2.1] at hid
    rcases Finset.mem_insert.mp hid with rfl | hold
    · exact Or.inr ⟨rfl, rfl⟩
    · exact Or.inl ⟨hold, fun hr => by cases hr⟩
  | clear supervisor | store supervisor =>
    rw [supervisor] at hid
    obtain ⟨hne, hold⟩ := Finset.mem_erase.mp hid
    exact Or.inl ⟨hold, fun hr => absurd (Option.some.inj hr).symm hne⟩
  | take supervisor =>
    rw [supervisor] at hid
    exact Or.inl ⟨Finset.mem_of_mem_erase hid, fun hr => by cases hr⟩
  | spawn supervisor | kill supervisor | exited supervisor =>
    rw [supervisor] at hid
    exact Or.inl ⟨hid, fun hr => hr⟩

/-- A stored child was stored before, or its `start` has just stored it. -/
theorem lookup_children (he : SpawnEffect me h h' p p')
    (hl : h'.supervisor.children.lookup id = some child) :
    h.supervisor.children.lookup id = some child ∨ p = .spawned id child ∧ p' = .idle := by
  have checked : ∀ id', (h.supervisor.childAlive h.alive id').2.children.lookup id = some child →
      h.supervisor.children.lookup id = some child := by
    intro id' hl
    rcases Supervisor.lookup_childAlive h.alive h.supervisor id' id with heq | ⟨-, hnone, -⟩
    · exact heq.symm.trans hl
    · rw [hnone] at hl
      cases hl
  cases he with
  | quiet supervisor =>
    rcases supervisor with hs | ⟨id', hs⟩ <;> rw [hs] at hl
    · exact Or.inl hl
    · exact Or.inl (checked id' hl)
  | @reserve id' granted =>
    rw [(Supervisor.reserve_eq_true granted).2.2.2] at hl
    exact Or.inl (checked id' hl)
  | store supervisor =>
    rw [supervisor, Supervisor.storeChild, HashMap.lookup_insert_ite] at hl
    split at hl
    · rename_i hid
      obtain rfl := Option.some.inj hl
      exact Or.inr ⟨by rw [hid], rfl⟩
    · exact Or.inl hl
  | take supervisor =>
    rw [supervisor, Supervisor.takeChild, HashMap.lookup_erase_ite] at hl
    split at hl
    · cases hl
    · exact Or.inl hl
  | clear supervisor | spawn supervisor | kill supervisor | exited supervisor =>
    rw [supervisor] at hl
    exact Or.inl hl

end SpawnEffect

/-! ## Processes -/

/-- What a process is never changes, a process that has exited stays so, and no kill is
forgotten. -/
structure Process.Becomes (p p' : Process) : Prop where
  owner : p'.owner = p.owner
  instanceId : p'.instanceId = p.instanceId
  pid : p'.pid = p.pid
  alive : p'.alive = true → p.alive = true
  signalled : p.signalled <+: p'.signalled

theorem Process.Becomes.refl (p : Process) : p.Becomes p :=
  ⟨rfl, rfl, rfl, fun h => h, List.prefix_rfl⟩

namespace SpawnEffect

variable {me : Nat} {h h' : Host} {p p' : Phase} {child : Nat}

/-- A process was there before, or its `start` has just spawned it. -/
theorem process_cases (he : SpawnEffect me h h' p p') {q' : Process}
    (hl : h'.process.lookup child = some q') :
    (∃ q, h.process.lookup child = some q ∧ q.Becomes q') ∨
      ∃ id pid, p = .reserved id ∧ p' = .spawned id child ∧ h.process.lookup child = none ∧
        q' = { owner := me, instanceId := id, pid := pid } := by
  cases he with
  | @spawn id k pid supervisor unused process =>
    rw [process, HashMap.lookup_insert_ite] at hl
    split at hl
    · rename_i hk
      subst hk
      exact Or.inr ⟨id, pid, rfl, rfl, unused, (Option.some.inj hl).symm⟩
    · exact Or.inl ⟨q', hl, .refl q'⟩
  | @kill id k supervisor process | @exited k supervisor process =>
    rw [process] at hl
    obtain ⟨q, hq, rfl | ⟨rfl, rfl⟩⟩ := HashMap.of_lookup_modify hl
    · exact Or.inl ⟨q', hq, .refl q'⟩
    · exact Or.inl ⟨q, hq, rfl, rfl, rfl, by simp, by simp⟩
  | quiet _ process | reserve _ process | clear _ process | store _ process | take _ process =>
    rw [process] at hl
    exact Or.inl ⟨q', hl, .refl q'⟩

/-- No process is ever forgotten. -/
theorem process_stays (he : SpawnEffect me h h' p p') {q : Process}
    (hl : h.process.lookup child = some q) :
    ∃ q', h'.process.lookup child = some q' ∧ q.Becomes q' := by
  cases he with
  | @spawn id k pid supervisor unused process =>
    have hk : child ≠ k := by
      rintro rfl
      rw [unused] at hl
      cases hl
    refine ⟨q, ?_, .refl q⟩
    rw [process, HashMap.lookup_insert_ite, if_neg hk, hl]
  | @kill id k supervisor process | @exited k supervisor process =>
    rw [process, HashMap.lookup_modify]
    split
    · rename_i hk
      subst hk
      exact ⟨_, congrArg (Option.map _) hl, rfl, rfl, rfl, by simp, by simp⟩
    · exact ⟨q, hl, .refl q⟩
  | quiet _ process | reserve _ process | clear _ process | store _ process | take _ process =>
    exact ⟨q, by rw [process, hl], .refl q⟩

end SpawnEffect

/-! ## The law of the reservations -/

/-- No reap clears the reservation of a `start`. -/
def clearsNothing (c : Config Host Task) (me : Nat) : Prop :=
  ∀ id, phases c me = .taking id → id ∉ c.shared.supervisor.starting

/-- Reservations are in the table, and an id has at most one. -/
structure ReservedInv (c : Config Host Task) : Prop where
  starting : ∀ t id, (phases c t).reserves = some id → id ∈ c.shared.supervisor.starting
  unique : ∀ t t' id, (phases c t).reserves = some id → (phases c t').reserves = some id → t = t'

/-- A task that has not taken a step reserves nothing. -/
theorem Boot.phase {c : Config Host Task} (h : Boot c) (t : Nat) :
    (phases c t).reserves = none ∧ (phases c t).takes = none := by
  have hf := h.fresh t
  unfold phases
  cases ht : c.task t <;> rw [ht] at hf
  case supervisor call =>
    rcases hf with ⟨args, connected, rfl⟩ | ⟨id, rfl⟩ | rfl | ⟨id, rfl⟩ <;> exact ⟨rfl, rfl⟩
  case startInstance call =>
    have hpc : call.pc = .validate := congrArg StartInstanceCall.pc hf
    simp only [Task.phase, hpc]
    exact ⟨rfl, rfl⟩
  case shutdown call =>
    obtain ⟨id, rfl⟩ := hf
    exact ⟨rfl, rfl⟩
  all_goals exact ⟨rfl, rfl⟩

theorem Boot.not_reserves {c : Config Host Task} (h : Boot c) (t : Nat) (id : String) :
    (phases c t).reserves ≠ some id := by
  intro hr
  rw [(h.phase t).1] at hr
  cases hr

theorem Boot.lookup_process {c : Config Host Task} (h : Boot c) (child : Nat) :
    c.shared.process.lookup child = none := by
  obtain ⟨default, config, now, hshared⟩ := h.shared
  rw [hshared]
  exact HashMap.lookup_empty child

namespace ReservedInv

theorem of_boot {c : Config Host Task} (h : Boot c) : ReservedInv c :=
  ⟨fun t id hr => absurd hr (h.not_reserves t id), fun t _ id hr => absurd hr (h.not_reserves t id)⟩

theorem step {c c' : Config Host Task} {me : Nat} {i : Choice} (inv : ReservedInv c)
    (guard : clearsNothing c me) (hf : proxy.fire c me i = some c') : ReservedInv c' := by
  obtain ⟨he, hother⟩ := fire_spawn hf
  have keeps : ∀ t id, (phases c t).reserves = some id → (phases c' t).reserves = some id →
      id ∈ c'.shared.supervisor.starting := by
    intro t id hr hr'
    have hid := inv.starting t id hr
    rcases he.mem_starting hid with hin | ⟨hme, hgone⟩ | htake
    · exact hin
    · obtain rfl := inv.unique t me id hr hme
      rw [hgone] at hr'
      cases hr'
    · exact absurd hid (guard id htake)
  -- a reservation of another task is old, one of `me` is old or was free to grant
  have before : ∀ t id, (phases c' t).reserves = some id → (phases c t).reserves = some id ∨
      t = me ∧ id ∉ c.shared.supervisor.starting ∧ id ∈ c'.shared.supervisor.starting := by
    intro t id hr
    by_cases ht : t = me
    · subst ht
      rcases he.reserves hr with hold | ⟨-, -, granted, -⟩
      · exact Or.inl hold
      · obtain ⟨hfree, hstarting, -, -⟩ := Supervisor.reserve_eq_true granted
        rw [hstarting]
        exact Or.inr ⟨rfl, hfree, Finset.mem_insert_self ..⟩
    · rw [hother t ht] at hr
      exact Or.inl hr
  refine ⟨?_, ?_⟩
  · intro t id hr
    rcases before t id hr with hold | ⟨-, -, hin⟩
    · exact keeps t id hold hr
    · exact hin
  · intro t t' id hr hr'
    rcases before t id hr with hold | ⟨rfl, hfree, -⟩ <;>
      rcases before t' id hr' with hold' | ⟨rfl, hfree', -⟩
    · exact inv.unique t t' id hold hold'
    · exact absurd (inv.starting t id hold) hfree'
    · exact absurd (inv.starting t' id hold') hfree
    · rfl

end ReservedInv

end CsmProxy
