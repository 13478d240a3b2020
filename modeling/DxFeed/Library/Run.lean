import Mathlib.Data.List.Basic
import Mathlib.Tactic

/-!
# Runs of a deterministic machine with outputs

* `run step s inputs`: the last state and all outputs of a list of inputs;
* `AllSteps C step s inputs`: every step of the run starts in a state and with an input
  that satisfy `C`;
* `run_invariant`: an invariant of the state and of the outputs so far that the steps
  satisfying `C` keep holds after every such run.
-/

namespace Run

variable {σ ι o : Type*}

/-- The run of a list of inputs: the last state, and the outputs in order. -/
def run (step : σ → ι → σ × List o) : σ → List ι → σ × List o
  | s, [] => (s, [])
  | s, i :: is =>
      let r := run step (step s i).1 is
      (r.1, (step s i).2 ++ r.2)

/-- Every step of the run satisfies `C`. -/
def AllSteps (C : σ → ι → Prop) (step : σ → ι → σ × List o) : σ → List ι → Prop
  | _, [] => True
  | s, i :: is => C s i ∧ AllSteps C step (step s i).1 is

instance decidableAllSteps {C : σ → ι → Prop} [∀ s i, Decidable (C s i)]
    {step : σ → ι → σ × List o} : ∀ s is, Decidable (AllSteps C step s is)
  | _, [] => isTrue trivial
  | s, i :: is =>
      have : Decidable (AllSteps C step (step s i).1 is) := decidableAllSteps _ is
      inferInstanceAs (Decidable (C s i ∧ AllSteps C step (step s i).1 is))

variable {step : σ → ι → σ × List o} {C : σ → ι → Prop} {s : σ} {i : ι} {is js : List ι}

@[simp] theorem run_nil : run step s [] = (s, []) := rfl

@[simp] theorem run_cons :
    run step s (i :: is) =
      ((run step (step s i).1 is).1, (step s i).2 ++ (run step (step s i).1 is).2) := rfl

@[simp] theorem allSteps_nil : AllSteps C step s [] := trivial

@[simp] theorem allSteps_cons :
    AllSteps C step s (i :: is) ↔ C s i ∧ AllSteps C step (step s i).1 is := Iff.rfl

theorem allSteps_true : AllSteps (fun _ _ => True) step s is := by
  induction is generalizing s with
  | nil => trivial
  | cons i is ih => exact ⟨trivial, ih⟩

theorem run_append :
    run step s (is ++ js) =
      ((run step (run step s is).1 js).1,
        (run step s is).2 ++ (run step (run step s is).1 js).2) := by
  induction is generalizing s with
  | nil => rfl
  | cons i is ih => simp [ih]

theorem run_append_fst : (run step s (is ++ js)).1 = (run step (run step s is).1 js).1 := by
  rw [run_append]

theorem run_concat :
    run step s (is ++ [i]) =
      ((step (run step s is).1 i).1, (run step s is).2 ++ (step (run step s is).1 i).2) := by
  simp [run_append]

theorem allSteps_append :
    AllSteps C step s (is ++ js) ↔
      AllSteps C step s is ∧ AllSteps C step (run step s is).1 js := by
  induction is generalizing s with
  | nil => simp
  | cons i is ih => simp [ih, and_assoc]

theorem allSteps_concat :
    AllSteps C step s (is ++ [i]) ↔ AllSteps C step s is ∧ C (run step s is).1 i := by
  simp [allSteps_append]

/-- An invariant of the state and the outputs so far. -/
theorem run_invariant {Inv : σ → List o → Prop} {os : List o} (hinit : Inv s os)
    (hsteps : AllSteps C step s is)
    (hstep : ∀ s i os, Inv s os → C s i → Inv (step s i).1 (os ++ (step s i).2)) :
    Inv (run step s is).1 (os ++ (run step s is).2) := by
  induction is generalizing s os with
  | nil => simpa using hinit
  | cons i is ih =>
      have h := ih (hstep s i os hinit hsteps.1) hsteps.2
      simpa using h

/-- An invariant of the state and of the inputs so far. -/
theorem run_invariant_inputs {Inv : σ → List ι → Prop} (hinit : Inv s [])
    (hstep : ∀ is i, Inv (run step s is).1 is → Inv (step (run step s is).1 i).1 (is ++ [i])) :
    Inv (run step s is).1 is := by
  induction is using List.reverseRecOn with
  | nil => exact hinit
  | append_singleton is i ih =>
      rw [run_concat]
      exact hstep is i ih

end Run
