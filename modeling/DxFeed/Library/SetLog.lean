import Mathlib.Data.Set.Insert
import Mathlib.Tactic

/-!
# Logs of a set

A set that is known only from the additions to it and the removals from it, in their order.

* `Entry`, `after`: an addition or a removal, and the set that a log leaves;
* `after_append`: logs one after the other;
* `after_adds`, `after_removes`: a block of additions is a union, a block of removals a difference.
-/

namespace SetLog

variable {α : Type*}

/-- An addition to a set, or a removal from it. -/
inductive Entry (α : Type*)
  | add (x : α)
  | remove (x : α)

/-- The set after an entry. -/
def apply (s : Set α) : Entry α → Set α
  | .add x => insert x s
  | .remove x => s \ {x}

/-- The set after a log. -/
def after (s : Set α) (log : List (Entry α)) : Set α :=
  log.foldl apply s

variable {s : Set α}

@[simp] theorem after_nil : after s [] = s := rfl

@[simp] theorem after_cons (e : Entry α) (log : List (Entry α)) :
    after s (e :: log) = after (apply s e) log := rfl

theorem after_append (log later : List (Entry α)) :
    after s (log ++ later) = after (after s log) later :=
  List.foldl_append

/-- A block of additions. -/
theorem after_adds (xs : List α) : after s (xs.map .add) = s ∪ {x | x ∈ xs} := by
  induction xs generalizing s with
  | nil => simp
  | cons x xs ih =>
      rw [List.map_cons, after_cons, ih]
      ext y
      simp only [apply, Set.mem_union, Set.mem_insert_iff, Set.mem_ofPred_eq, List.mem_cons]
      tauto

/-- A block of removals. -/
theorem after_removes (xs : List α) : after s (xs.map .remove) = s \ {x | x ∈ xs} := by
  induction xs generalizing s with
  | nil => simp
  | cons x xs ih =>
      rw [List.map_cons, after_cons, ih]
      ext y
      simp only [apply, Set.mem_sdiff, Set.mem_singleton_iff, Set.mem_ofPred_eq, List.mem_cons]
      tauto

end SetLog
