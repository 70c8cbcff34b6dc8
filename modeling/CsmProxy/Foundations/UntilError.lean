import Mathlib.Data.List.Basic

/-!
# Running until the first error

`untilError run s l` runs the commands of `l` one after the other from the state `s`, each
from the state that the one before it left, and stops behind the first error. It returns
the results of the commands that ran, and the state.

`untilError_append` is the law of composition: what comes second runs if everything that
comes first succeeds, and does not matter otherwise.
-/

namespace CsmProxy.Foundations

variable {σ α β ε : Type}

/-- Is this a success? -/
def succeeded : Except ε β → Bool
  | .ok _ => true
  | .error _ => false

/-- Run the commands of a list until one fails. -/
def untilError (run : σ → α → Except ε β × σ) : σ → List α → List (Except ε β) × σ
  | s, [] => ([], s)
  | s, a :: rest =>
    match run s a with
    | (.ok b, s) => (.ok b :: (untilError run s rest).1, (untilError run s rest).2)
    | (.error e, s) => ([.error e], s)

variable {run : σ → α → Except ε β × σ}

theorem untilError_cons_ok {s s' : σ} {a : α} {b : β} (h : run s a = (.ok b, s')) (rest : List α) :
    untilError run s (a :: rest) =
      (.ok b :: (untilError run s' rest).1, (untilError run s' rest).2) := by
  rw [untilError, h]

theorem untilError_cons_error {s s' : σ} {a : α} {e : ε} (h : run s a = (.error e, s'))
    (rest : List α) : untilError run s (a :: rest) = ([.error e], s') := by
  rw [untilError, h]

theorem untilError_singleton (s : σ) (a : α) :
    untilError run s [a] = ([(run s a).1], (run s a).2) := by
  rcases hrun : run s a with ⟨result, s'⟩
  cases result with
  | ok b => exact untilError_cons_ok hrun []
  | error e => exact untilError_cons_error hrun []

/-- Without an error every command runs. -/
theorem length_untilError {s : σ} {l : List α} (h : (untilError run s l).1.all succeeded = true) :
    (untilError run s l).1.length = l.length := by
  induction l generalizing s with
  | nil => rfl
  | cons a rest ih =>
    rcases hrun : run s a with ⟨result, s'⟩
    cases result with
    | ok b =>
      rw [untilError_cons_ok hrun] at h ⊢
      rw [List.length_cons, List.length_cons, ih (Bool.and_eq_true_iff.mp h).2]
    | error e =>
      rw [untilError_cons_error hrun] at h
      cases h

/-- Only the last command can have failed. -/
theorem succeeded_of_mem_dropLast {s : σ} {l : List α} {r : Except ε β}
    (h : r ∈ (untilError run s l).1.dropLast) : succeeded r = true := by
  induction l generalizing s with
  | nil => cases h
  | cons a rest ih =>
    rcases hrun : run s a with ⟨result, s'⟩
    cases result with
    | ok b =>
      rw [untilError_cons_ok hrun] at h
      cases hrest : (untilError run s' rest).1 with
      | nil =>
        rw [hrest] at h
        cases h
      | cons r' out =>
        rw [hrest, List.dropLast_cons_cons, ← hrest] at h
        rcases List.mem_cons.mp h with rfl | hlater
        · rfl
        · exact ih hlater
    | error e =>
      rw [untilError_cons_error hrun] at h
      cases h

theorem untilError_append (s : σ) (l₁ l₂ : List α) :
    untilError run s (l₁ ++ l₂) =
      if (untilError run s l₁).1.all succeeded then
        ((untilError run s l₁).1 ++ (untilError run (untilError run s l₁).2 l₂).1,
          (untilError run (untilError run s l₁).2 l₂).2)
      else untilError run s l₁ := by
  induction l₁ generalizing s with
  | nil => rfl
  | cons a rest ih =>
    rw [List.cons_append]
    rcases hrun : run s a with ⟨result, s'⟩
    cases result with
    | ok b =>
      rw [untilError_cons_ok hrun, untilError_cons_ok hrun, ih s', List.all_cons]
      have hfirst : (succeeded (.ok b : Except ε β) && (untilError run s' rest).1.all succeeded) =
          (untilError run s' rest).1.all succeeded := Bool.true_and _
      rw [hfirst]
      split <;> rfl
    | error e =>
      rw [untilError_cons_error hrun, untilError_cons_error hrun]
      rfl

/-- What follows the first error does not matter. -/
theorem untilError_take_append {s : σ} {l : List α}
    (h : (untilError run s l).1.all succeeded = false) (l' : List α) :
    untilError run s (l.take (untilError run s l).1.length ++ l') = untilError run s l := by
  induction l generalizing s with
  | nil => cases h
  | cons a rest ih =>
    rcases hrun : run s a with ⟨result, s'⟩
    cases result with
    | ok b =>
      rw [untilError_cons_ok hrun] at h ⊢
      have hrest : (untilError run s' rest).1.all succeeded = false := h
      rw [List.length_cons, List.take_succ_cons, List.cons_append, untilError_cons_ok hrun, ih hrest]
    | error e =>
      rw [untilError_cons_error hrun, List.length_singleton, List.take_succ_cons, List.cons_append,
        untilError_cons_error hrun]

end CsmProxy.Foundations
