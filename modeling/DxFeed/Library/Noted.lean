import Mathlib.Logic.Basic

/-!
# Computations that note what they do

A computation with notes of type `ν` ends with a value or with an error; what it notes before it
fails stays noted.

* `note`, `lift`: one note, and a computation without notes;
* `Meets`: all notes, all errors and all values are as they are to be;
* `Meets.bind`, `mem_notes_bind`: what holds of a sequence, and what a sequence notes.
-/

/-- A computation with its notes and how it ends. -/
structure Noted (ν ε α : Type) where
  notes : List ν
  result : Except ε α

namespace Noted

variable {ν ε α β : Type}

instance : Monad (Noted ν ε) where
  pure a := ⟨[], .ok a⟩
  bind x f :=
    match x.result with
    | .ok a => ⟨x.notes ++ (f a).notes, (f a).result⟩
    | .error e => ⟨x.notes, .error e⟩

/-- A note. -/
def note (n : ν) : Noted ν ε PUnit :=
  ⟨[n], .ok ⟨⟩⟩

/-- A computation without notes. -/
def lift (r : Except ε α) : Noted ν ε α :=
  ⟨[], r⟩

/-- A failure. -/
def fail (e : ε) : Noted ν ε α :=
  lift (.error e)

@[simp] theorem result_pure (a : α) : (pure a : Noted ν ε α).result = .ok a := rfl

@[simp] theorem result_note (n : ν) : (note n : Noted ν ε PUnit).result = .ok ⟨⟩ := rfl

@[simp] theorem result_lift (r : Except ε α) : (lift r : Noted ν ε α).result = r := rfl

@[simp] theorem result_fail (e : ε) : (fail e : Noted ν ε α).result = .error e := rfl

@[simp] theorem notes_note (n : ν) : (note n : Noted ν ε PUnit).notes = [n] := rfl

@[simp] theorem result_ite {c : Prop} [Decidable c] (x y : Noted ν ε α) :
    (if c then x else y).result = if c then x.result else y.result :=
  apply_ite _ _ _ _

@[simp] theorem ok_bind (a : α) (f : α → Except ε β) : (Except.ok a >>= f) = f a := rfl

@[simp] theorem error_bind (e : ε) (f : α → Except ε β) :
    (Except.error e >>= f) = .error e := rfl

variable {x : Noted ν ε α} {f : α → Noted ν ε β}

theorem bind_ok {a : α} (h : x.result = .ok a) :
    x >>= f = ⟨x.notes ++ (f a).notes, (f a).result⟩ := by
  show (match x.result with
    | .ok a => ⟨x.notes ++ (f a).notes, (f a).result⟩
    | .error e => ⟨x.notes, .error e⟩ : Noted ν ε β) = _
  rw [h]

theorem bind_error {e : ε} (h : x.result = .error e) : x >>= f = ⟨x.notes, .error e⟩ := by
  show (match x.result with
    | .ok a => ⟨x.notes ++ (f a).notes, (f a).result⟩
    | .error e => ⟨x.notes, .error e⟩ : Noted ν ε β) = _
  rw [h]

/-- A sequence ends as the computations without the notes do. -/
@[simp] theorem result_bind : (x >>= f).result = x.result >>= fun a => (f a).result := by
  cases h : x.result with
  | ok a =>
      rw [bind_ok h]
      rfl
  | error e =>
      rw [bind_error h]
      rfl

/-- What the second computation notes is noted, if the first one succeeds. -/
theorem mem_notes_bind {a : α} {n : ν} (h : x.result = .ok a) (hn : n ∈ (f a).notes) :
    n ∈ (x >>= f).notes := by
  rw [bind_ok h]
  exact List.mem_append_right _ hn

/-- What the first computation notes is noted. -/
theorem mem_notes_bind_left {n : ν} (hn : n ∈ x.notes) : n ∈ (x >>= f).notes := by
  cases h : x.result with
  | ok a =>
      rw [bind_ok h]
      exact List.mem_append_left _ hn
  | error e =>
      rw [bind_error h]
      exact hn

/-! ### What all notes satisfy -/

variable {N : ν → Prop} {E : ε → Prop} {P : α → Prop} {Q : β → Prop}

/-- The notes satisfy `N`, an error satisfies `E`, and a value satisfies `P`. -/
structure Meets (N : ν → Prop) (E : ε → Prop) (P : α → Prop) (x : Noted ν ε α) : Prop where
  notes : ∀ n ∈ x.notes, N n
  error : ∀ e, x.result = .error e → E e
  value : ∀ a, x.result = .ok a → P a

theorem meets_pure {a : α} (h : P a) : Meets N E P (pure a : Noted ν ε α) where
  notes _ hn := nomatch hn
  error _ he := nomatch he
  value _ ha := Except.ok.inj ha ▸ h

theorem meets_note {n : ν} {P : PUnit → Prop} (h : N n) (hP : P ⟨⟩) :
    Meets N E P (note n : Noted ν ε PUnit) where
  notes _ hn := List.mem_singleton.mp hn ▸ h
  error _ he := nomatch he
  value _ _ := hP

theorem meets_lift {r : Except ε α} (he : ∀ e, r = .error e → E e) (ha : ∀ a, r = .ok a → P a) :
    Meets N E P (lift r : Noted ν ε α) where
  notes _ hn := nomatch hn
  error := he
  value := ha

theorem meets_fail {e : ε} (h : E e) : Meets N E P (fail e : Noted ν ε α) :=
  meets_lift (fun _ he => Except.error.inj he ▸ h) fun _ ha => nomatch ha

theorem Meets.mono {P' : α → Prop} (hx : Meets N E P x) (h : ∀ a, P a → P' a) :
    Meets N E P' x where
  notes := hx.notes
  error := hx.error
  value a ha := h a (hx.value a ha)

theorem Meets.and_result (hx : Meets N E P x) :
    Meets N E (fun a => P a ∧ x.result = .ok a) x where
  notes := hx.notes
  error := hx.error
  value a ha := ⟨hx.value a ha, ha⟩

/-- The second computation is to be right for the values of the first one. -/
theorem Meets.bind (hx : Meets N E P x) (hf : ∀ a, P a → Meets N E Q (f a)) :
    Meets N E Q (x >>= f) := by
  cases h : x.result with
  | ok a =>
      have ha := hf a (hx.value a h)
      rw [bind_ok h]
      constructor
      · intro n hn
        rcases List.mem_append.mp hn with hn | hn
        · exact hx.notes n hn
        · exact ha.notes n hn
      · exact ha.error
      · exact ha.value
  | error e =>
      rw [bind_error h]
      constructor
      · exact hx.notes
      · rintro e' he'
        exact hx.error e' (h.trans (congrArg Except.error (Except.error.inj he')))
      · intro b hb
        exact nomatch hb

/-- A note in front of a computation. -/
theorem Meets.note_bind {n : ν} {f : PUnit → Noted ν ε β} (h : N n) (hf : Meets N E Q (f ⟨⟩)) :
    Meets N E Q (note n >>= f) :=
  (meets_note (P := fun _ => True) h trivial).bind fun _ _ => hf

end Noted
