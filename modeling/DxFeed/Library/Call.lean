import Mathlib

/-!
# Calls that can fail

A C function that returns a success flag, fills an output argument and works on a context
is a `Call ε σ α`: from a state it returns an error or a value, and in both cases the state
it leaves.  `exec` runs a call; the lemmas below run it statement by statement.

* `Keeps f x`: the call does not change what `f` reads from the state;
* `Returns x s`: the call succeeds from the state.
-/

/-- A call with errors `ε` on states `σ`. -/
abbrev Call (ε σ : Type) := ExceptT ε (StateM σ)

namespace Call

variable {ε σ α β : Type}

/-- The result of a call and the state it leaves. -/
def exec (x : Call ε σ α) (s : σ) : Except ε α × σ :=
  x.run.run s

@[simp] theorem exec_pure (a : α) (s : σ) : exec (pure a : Call ε σ α) s = (.ok a, s) := rfl

@[simp] theorem exec_throw (e : ε) (s : σ) :
    exec (throw e : Call ε σ α) s = (.error e, s) := rfl

@[simp] theorem exec_get (s : σ) : exec (get : Call ε σ σ) s = (.ok s, s) := rfl

@[simp] theorem exec_set (s t : σ) : exec (set t : Call ε σ PUnit) s = (.ok ⟨⟩, t) := rfl

@[simp] theorem exec_modify (f : σ → σ) (s : σ) :
    exec (modify f : Call ε σ PUnit) s = (.ok ⟨⟩, f s) := rfl

theorem exec_mk (f : σ → Except ε α × σ) (s : σ) :
    exec (ExceptT.mk f : Call ε σ α) s = f s := rfl

/-- A sequence goes on from the state that the first call leaves. -/
theorem exec_bind_ok {x : Call ε σ α} {f : α → Call ε σ β} {s s' : σ} {a : α}
    (h : exec x s = (.ok a, s')) : exec (x >>= f) s = exec (f a) s' := by
  have hx : x.run s = (.ok a, s') := h
  show StateT.bind x.run (ExceptT.bindCont f) s = _
  simp only [StateT.bind]
  rw [hx]
  rfl

/-- A sequence ends with the first error. -/
theorem exec_bind_error {x : Call ε σ α} {f : α → Call ε σ β} {s s' : σ} {e : ε}
    (h : exec x s = (.error e, s')) : exec (x >>= f) s = (.error e, s') := by
  have hx : x.run s = (.error e, s') := h
  show StateT.bind x.run (ExceptT.bindCont f) s = _
  simp only [StateT.bind]
  rw [hx]
  rfl

/-- What a sequence does, from what its first call does. -/
theorem exec_bind (x : Call ε σ α) (f : α → Call ε σ β) (s : σ) :
    exec (x >>= f) s =
      match exec x s with
      | (.ok a, s') => exec (f a) s'
      | (.error e, s') => (.error e, s') := by
  rcases h : exec x s with ⟨_ | _, _⟩
  · exact exec_bind_error h
  · exact exec_bind_ok h

/-- A sequence that succeeds has a successful start. -/
theorem exec_bind_eq_ok {x : Call ε σ α} {f : α → Call ε σ β} {s s'' : σ} {b : β}
    (h : exec (x >>= f) s = (.ok b, s'')) :
    ∃ a s', exec x s = (.ok a, s') ∧ exec (f a) s' = (.ok b, s'') := by
  rw [exec_bind] at h
  rcases hx : exec x s with ⟨_ | a, s'⟩
  · rw [hx] at h
    exact nomatch (Prod.mk.inj h).1
  · rw [hx] at h
    exact ⟨a, s', rfl, h⟩

/-- Other errors, the same states. -/
theorem exec_adapt {ε' : Type} (g : ε → ε') (x : Call ε σ α) (s : σ) :
    exec (ExceptT.adapt g x) s = ((exec x s).1.mapError g, (exec x s).2) := rfl

theorem exec_adapt_ok {ε' : Type} (g : ε → ε') {x : Call ε σ α} {s s' : σ} {a : α}
    (h : exec x s = (.ok a, s')) : exec (ExceptT.adapt g x) s = (.ok a, s') := by
  rw [exec_adapt, h]
  rfl

theorem exec_adapt_error {ε' : Type} (g : ε → ε') {x : Call ε σ α} {s s' : σ} {e : ε}
    (h : exec x s = (.error e, s')) : exec (ExceptT.adapt g x) s = (.error (g e), s') := by
  rw [exec_adapt, h]
  rfl

/-- A call on a part of the state. -/
def zoom {τ : Type} (part : σ → τ) (put : σ → τ → σ) (x : Call ε τ α) : Call ε σ α :=
  ExceptT.mk fun s => ((exec x (part s)).1, put s (exec x (part s)).2)

@[simp] theorem exec_zoom {τ : Type} (part : σ → τ) (put : σ → τ → σ) (x : Call ε τ α) (s : σ) :
    exec (zoom part put x) s = ((exec x (part s)).1, put s (exec x (part s)).2) := rfl

/-! ### Frames -/

variable {τ : Type*} {f : σ → τ}

/-- The call does not change what `f` reads from the state. -/
def Keeps (f : σ → τ) (x : Call ε σ α) : Prop :=
  ∀ s, f (exec x s).2 = f s

theorem keeps_pure (a : α) : Keeps f (pure a : Call ε σ α) := fun _ => rfl

theorem keeps_throw (e : ε) : Keeps f (throw e : Call ε σ α) := fun _ => rfl

theorem keeps_modify {g : σ → σ} (h : ∀ s, f (g s) = f s) :
    Keeps f (modify g : Call ε σ PUnit) := h

theorem Keeps.bind {x : Call ε σ α} {g : α → Call ε σ β} (hx : Keeps f x)
    (hg : ∀ a, Keeps f (g a)) : Keeps f (x >>= g) := by
  intro s
  rw [exec_bind]
  have h := hx s
  rcases hr : exec x s with ⟨_ | a, s'⟩
  · rw [hr] at h
    exact h
  · rw [hr] at h
    exact (hg a s').trans h

/-- A call that starts by reading the state. -/
theorem keeps_get_bind {g : σ → Call ε σ β} (hg : ∀ s, f (exec (g s) s).2 = f s) :
    Keeps f (get >>= g) := by
  intro s
  rw [exec_bind_ok (exec_get s)]
  exact hg s

/-- A condition on the state that holds after the call if it holds before. -/
def Preserves (P : σ → Prop) (x : Call ε σ α) : Prop :=
  ∀ s, P s → P (exec x s).2

section Preserves

variable {P : σ → Prop}

theorem preserves_pure (a : α) : Preserves P (pure a : Call ε σ α) := fun _ h => h

theorem Preserves.bind {x : Call ε σ α} {g : α → Call ε σ β} (hx : Preserves P x)
    (hg : ∀ a, Preserves P (g a)) : Preserves P (x >>= g) := by
  intro s hs
  rw [exec_bind]
  have h := hx s hs
  rcases hr : exec x s with ⟨_ | a, s'⟩
  · rw [hr] at h
    exact h
  · rw [hr] at h
    exact hg a s' h

theorem preserves_modify {g : σ → σ} (h : ∀ s, P s → P (g s)) :
    Preserves P (modify g : Call ε σ PUnit) := h

theorem preserves_zoom {τ : Type} {part : σ → τ} {put : σ → τ → σ} {x : Call ε τ α}
    (h : ∀ s t, P s → P (put s t)) : Preserves P (zoom part put x) :=
  fun s hs => h s _ hs

/-- A call that starts by reading the state. -/
theorem preserves_get_bind {g : σ → Call ε σ β} (hg : ∀ s, P s → P (exec (g s) s).2) :
    Preserves P (get >>= g) := by
  intro s hs
  rw [exec_bind_ok (exec_get s)]
  exact hg s hs

end Preserves

/-! ### Success -/

/-- The call succeeds from the state. -/
def Returns (x : Call ε σ α) (s : σ) : Prop :=
  ∃ a, (exec x s).1 = .ok a

@[simp] theorem returns_pure (a : α) (s : σ) : Returns (pure a : Call ε σ α) s := ⟨a, rfl⟩

@[simp] theorem returns_throw (e : ε) (s : σ) : ¬ Returns (throw e : Call ε σ α) s := by
  rintro ⟨a, h⟩
  cases h

@[simp] theorem returns_modify (g : σ → σ) (s : σ) :
    Returns (modify g : Call ε σ PUnit) s := ⟨⟨⟩, rfl⟩

/-- A sequence succeeds if its calls succeed one after the other. -/
theorem returns_bind (x : Call ε σ α) (g : α → Call ε σ β) (s : σ) :
    Returns (x >>= g) s ↔ ∃ a s', exec x s = (.ok a, s') ∧ Returns (g a) s' := by
  unfold Returns
  rw [exec_bind]
  rcases exec x s with ⟨_ | a, s'⟩ <;> simp

/-- Whether a sequence succeeds, if that depends only on what its first call keeps. -/
theorem returns_bind_of_keeps {x : Call ε σ α} {g : α → Call ε σ β} {s : σ} {P : Prop}
    (hx : Keeps f x) (hg : ∀ a s', f s' = f s → (Returns (g a) s' ↔ P)) :
    Returns (x >>= g) s ↔ Returns x s ∧ P := by
  have hkeep := hx s
  rw [returns_bind]
  constructor
  · rintro ⟨a, s', h, hret⟩
    rw [h] at hkeep
    exact ⟨⟨a, by rw [h]⟩, (hg a s' hkeep).mp hret⟩
  · rintro ⟨⟨a, ha⟩, hP⟩
    exact ⟨a, (exec x s).2, Prod.ext ha rfl, (hg a _ hkeep).mpr hP⟩

theorem returns_get_bind (g : σ → Call ε σ β) (s : σ) :
    Returns (get >>= g) s ↔ Returns (g s) s := by
  simp [returns_bind]

end Call
