import Mathlib.Data.List.Basic
import Mathlib.Tactic

/-!
# Loops

A loop is a step that is made as long as there is one.

* `loop step n s`: at most `n` steps from `s` on;
* `Over step s`: there is no step;
* `loop_invariant`, `loop_counts`: what steps keep, and how many they are.
-/

namespace Loop

variable {σ : Type*} {step : σ → Option σ} {s : σ} {n : ℕ}

/-- At most `n` steps. -/
def loop (step : σ → Option σ) : ℕ → σ → σ
  | 0, s => s
  | n + 1, s =>
      match step s with
      | none => s
      | some s' => loop step n s'

/-- There is no step. -/
def Over (step : σ → Option σ) (s : σ) : Prop := step s = none

instance (s : σ) : Decidable (Over step s) :=
  match h : step s with
  | none => isTrue h
  | some _ => isFalse (by rw [Over, h]; exact nofun)

@[simp] theorem loop_zero : loop step 0 s = s := rfl

theorem loop_over (h : Over step s) (n : ℕ) : loop step n s = s := by
  cases n with
  | zero => rfl
  | succ n => rw [loop, h]

theorem loop_step {s' : σ} (h : step s = some s') (n : ℕ) :
    loop step (n + 1) s = loop step n s' := by
  rw [loop, h]

/-- What every step keeps is so behind any number of steps. -/
theorem loop_invariant {P : σ → Prop} (hinit : P s)
    (hstep : ∀ s s', P s → step s = some s' → P s') : P (loop step n s) := by
  induction n generalizing s with
  | zero => exact hinit
  | succ n ih =>
      cases hs : step s with
      | none =>
          rw [loop_over hs]
          exact hinit
      | some s' =>
          rw [loop_step hs]
          exact ih (hstep s s' hinit hs)

/-- A number that grows by one in every step is the number of steps, until the loop is over. -/
theorem loop_counts {count : σ → ℕ} (hstep : ∀ s s', step s = some s' → count s' = count s + 1)
    (h : ¬ Over step (loop step n s)) : count (loop step n s) = count s + n := by
  induction n generalizing s with
  | zero => rfl
  | succ n ih =>
      cases hs : step s with
      | none =>
          rw [loop_over hs] at h
          exact absurd hs h
      | some s' =>
          rw [loop_step hs] at h ⊢
          rw [ih h, hstep s s' hs]
          omega

end Loop
