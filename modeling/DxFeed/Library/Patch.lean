import DxFeed.Library.SortedList

/-!
# Patches of a keyed view

A reader holds a view of some records, a partial function from keys to records, and receives
patches: lists of records, each of which sets or removes what the view has under its key.

* `apply key value view l`: the view after the patch `l`, record by record;
* `apply_eq`: a patch sorted by the keys overrides the view on its keys;
* `apply_written`: writing a record into a patch writes its value into the patched view.
-/

namespace Patch

open SortedList

variable {κ α : Type*} [LinearOrder κ] {key : α → κ} {value : α → Option α}
  {view : κ → Option α} {l l' : List α} {r : α} {k : κ}

/-- Applies the records of a patch to a view, one by one. -/
def apply (key : α → κ) (value : α → Option α) (view : κ → Option α) (l : List α) :
    κ → Option α :=
  l.foldl (fun view r => Function.update view (key r) (value r)) view

@[simp] theorem apply_nil : apply key value view [] = view := rfl

@[simp] theorem apply_cons :
    apply key value view (r :: l) =
      apply key value (Function.update view (key r) (value r)) l := rfl

/-- A sorted patch overrides the view on its keys. -/
theorem apply_eq (h : KeySorted key l) (view : κ → Option α) (k : κ) :
    apply key value view l k = ((lookup key l k).map value).getD (view k) := by
  induction l generalizing view with
  | nil => rfl
  | cons r l ih =>
      obtain ⟨hr, hl⟩ := keySorted_cons.mp h
      rw [apply_cons, ih hl, lookup_cons]
      by_cases hk : key r = k
      · subst hk
        have hnone : lookup key l (key r) = none := lookup_eq_none.mpr fun a ha => (hr a ha).ne'
        rw [hnone, if_pos rfl, Option.map_none, Option.getD_none, Function.update_self,
          Option.map_some, Option.getD_some]
      · rw [if_neg hk, Function.update_of_ne (Ne.symm hk)]

/-- The list `l'` is sorted and has the records of `l`, except that it has `r` under its key. -/
structure Written (key : α → κ) (r : α) (l l' : List α) : Prop where
  sorted : KeySorted key l'
  lookup_eq : lookup key l' = Function.update (lookup key l) (key r) (some r)

/-- The list `l'` is sorted and has the records of `l`, except that it has none under `k`. -/
structure Erased (key : α → κ) (k : κ) (l l' : List α) : Prop where
  sorted : KeySorted key l'
  lookup_eq : lookup key l' = Function.update (lookup key l) k none

/-- Writing a record into a patch writes its value into the patched view. -/
theorem apply_written (hl : KeySorted key l) (h : Written key r l l') :
    apply key value view l' = Function.update (apply key value view l) (key r) (value r) := by
  funext k
  rw [apply_eq h.sorted, h.lookup_eq]
  by_cases hk : k = key r
  · subst hk
    rw [Function.update_self, Function.update_self]
    rfl
  · rw [Function.update_of_ne hk, Function.update_of_ne hk, apply_eq hl]

end Patch
