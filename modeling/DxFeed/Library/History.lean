import Mathlib.Data.List.Basic

/-!
# Histories

A history is a list of events in which every event is admitted by the ones before it.

* `Admitted R l`: `R before x` holds for every element `x` of `l` and the elements before it;
* `admitted_concat`, `Admitted.tail`: a history grows at its end and is consumed at its head;
* `Admitted.mono`: a weaker relation admits the elements of the list too.
-/

namespace History

variable {α : Type*} {R Q : List α → α → Prop} {l : List α} {x : α}

/-- Every element is admitted by the elements before it. -/
def Admitted (R : List α → α → Prop) (l : List α) : Prop :=
  ∀ before x after, l = before ++ x :: after → R before x

@[simp] theorem admitted_nil : Admitted R [] := by
  intro before x after h
  simp at h

theorem Admitted.mono (h : Admitted R l)
    (hRQ : ∀ before x, x ∈ l → R before x → Q before x) : Admitted Q l := by
  intro before x after hl
  exact hRQ before x (by simp [hl]) (h before x after hl)

theorem admitted_concat : Admitted R (l ++ [x]) ↔ Admitted R l ∧ R l x := by
  constructor
  · intro h
    refine ⟨?_, h l x [] rfl⟩
    intro before y after hl
    exact h before y (after ++ [x]) (by simp [hl])
  · rintro ⟨h, hx⟩ before y after hl
    rcases List.eq_nil_or_concat after with rfl | ⟨after', z, rfl⟩
    · obtain ⟨rfl, hxy⟩ := List.append_inj' hl rfl
      obtain rfl : x = y := by simpa using hxy
      exact hx
    · rw [List.concat_eq_append, ← List.cons_append, ← List.append_assoc] at hl
      exact h before y after' (List.append_inj' hl rfl).1

theorem Admitted.head (h : Admitted R (x :: l)) : R [] x := h [] x l rfl

/-- The elements behind the first one: it may have admitted them. -/
theorem Admitted.tail (h : Admitted R (x :: l)) :
    Admitted (fun before y => R (x :: before) y) l := by
  intro before y after hl
  exact h (x :: before) y after (by simp [hl])

end History
