import CsmProxy.Foundations.TaskPool

/-!
# Runs with a history

`P.recording note` is the pool `P` with a list of events beside its shared state, the
newest first. `note` says which event a step is, from what the task and the shared state
were before it. The history decides nothing: a run of the recording pool is a run of `P`
(`Reach.erase`), and every run of `P` is one of the recording pool (`Reach.record`). A
statement about all runs may so speak about what happened earlier.
-/

namespace CsmProxy.Foundations

variable {G L I E : Type}

/-- The event that a step is, if it is one. -/
abbrev Note (G L I E : Type) := Nat → G → L → I → Option E

/-- What was followed by an event is the new event, or was followed by it before. -/
theorem suffix_note {note : Option E} {e : E} {before log : List E}
    (h : e :: before <:+ note.toList ++ log) :
    (note = some e ∧ before = log) ∨ e :: before <:+ log := by
  cases note with
  | none => exact .inr h
  | some e' =>
    rcases List.suffix_cons_iff.mp h with he | hold
    · cases he
      exact .inl ⟨rfl, rfl⟩
    · exact .inr hold

namespace Config

/-- Forget the history. -/
def erase (c : Config (G × List E) L) : Config G L := ⟨c.shared.1, c.task⟩

/-- A configuration with a history. -/
def withLog (c : Config G L) (log : List E) : Config (G × List E) L := ⟨(c.shared, log), c.task⟩

/-- Leave events out of the history, or tell them in another way. -/
def retell {E' : Type} (c : Config (G × List E) L) (f : E → Option E') : Config (G × List E') L :=
  ⟨(c.shared.1, c.shared.2.filterMap f), c.task⟩

@[simp] theorem erase_withLog (c : Config G L) (log : List E) : (c.withLog log).erase = c := rfl

end Config

namespace Pool

variable {P : Pool G L I} {note : Note G L I E}

/-- The pool with a history beside its shared state. -/
def recording (P : Pool G L I) (note : Note G L I E) : Pool (G × List E) L I where
  step me g l i :=
    (P.step me g.1 l i).map fun r => ((r.1, (note me g.1 l i).toList ++ g.2), r.2)

/-- A step of the recording pool is a step of the pool, and notes its event. -/
theorem fire_recording {c c' : Config (G × List E) L} {me : Nat} {i : I}
    (h : (P.recording note).fire c me i = some c') :
    P.fire c.erase me i = some c'.erase ∧
      c'.shared.2 = (note me c.shared.1 (c.task me) i).toList ++ c.shared.2 := by
  obtain ⟨g, l, hs, rfl⟩ := fire_eq_some.mp h
  obtain ⟨⟨g₁, l₁⟩, hp, he⟩ := Option.map_eq_some_iff.mp hs
  cases he
  exact ⟨fire_eq_some.mpr ⟨g₁, l₁, hp, rfl⟩, rfl⟩

theorem Reach.erase {ok : Guard (G × List E) L I} {a b : Config (G × List E) L}
    (h : (P.recording note).Reach ok a b) : P.Reach anyStep a.erase b.erase := by
  induction h with
  | refl => exact .refl
  | tail _ _ fire ih => exact .tail ih trivial (fire_recording fire).1

/-- Every run can be recorded, whatever happened before it. -/
theorem Reach.record {ok : Guard G L I} {a b : Config G L} (note : Note G L I E)
    (h : P.Reach ok a b) (log : List E) :
    ∃ log', (P.recording note).Reach (fun c => ok c.erase) (a.withLog log) (b.withLog log') := by
  induction h with
  | refl => exact ⟨log, .refl⟩
  | @tail b c me i _ guard fire ih =>
    obtain ⟨log', run⟩ := ih
    obtain ⟨g, l, hs, rfl⟩ := fire_eq_some.mp fire
    refine ⟨(note me b.shared (b.task me) i).toList ++ log', .tail run guard ?_⟩
    refine fire_eq_some.mpr ⟨_, l, ?_, rfl⟩
    simp only [recording, Config.withLog, hs, Option.map_some]

/-- A run with a history is a run with each history that can be told from it. -/
theorem Reach.retell {E' : Type} {note' : Note G L I E'} {f : E → Option E'}
    (hnote : ∀ me g l i, note' me g l i = (note me g l i).bind f)
    {ok : Guard (G × List E) L I} {ok' : Guard (G × List E') L I}
    (hok : ∀ c me i, ok c me i → ok' (c.retell f) me i) {a b : Config (G × List E) L}
    (h : (P.recording note).Reach ok a b) :
    (P.recording note').Reach ok' (a.retell f) (b.retell f) := by
  induction h with
  | refl => exact .refl
  | @tail b c me i _ guard fire ih =>
    refine .tail ih (hok b me i guard) ?_
    obtain ⟨g, l, hs, rfl⟩ := fire_eq_some.mp fire
    obtain ⟨⟨g₁, l₁⟩, hp, he⟩ := Option.map_eq_some_iff.mp hs
    cases he
    refine fire_eq_some.mpr ⟨_, l₁, Option.map_eq_some_iff.mpr ⟨_, hp, rfl⟩, ?_⟩
    simp only [Config.retell, hnote, List.filterMap_append]
    cases note me b.shared.1 (b.task me) i with
    | none => rfl
    | some e => cases hf : f e <;> simp [hf]

end Pool

end CsmProxy.Foundations
