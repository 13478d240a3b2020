import Mathlib.Data.Int.Basic
import Mathlib.Tactic

/-!
# Signed arithmetic that may not overflow

The result of an operation on signed integers is not defined when the exact result does not fit in
the type.

* `signedInt`, `signedLong`: a number as an `Int32`, or as an `Int64`, if it fits;
* `signedInt_eq_some`, `exists_signedLong`: the result, if there is one, is the exact number.
-/

namespace SignedArith

/-- A number that fits in 32 bits with a sign. -/
def FitsInt (x : ℤ) : Prop := -2 ^ 31 ≤ x ∧ x < 2 ^ 31

/-- A number that fits in 64 bits with a sign. -/
def FitsLong (x : ℤ) : Prop := -2 ^ 63 ≤ x ∧ x < 2 ^ 63

instance (x : ℤ) : Decidable (FitsInt x) := inferInstanceAs (Decidable (_ ∧ _))

instance (x : ℤ) : Decidable (FitsLong x) := inferInstanceAs (Decidable (_ ∧ _))

/-- The exact result of an operation on 32 bits. -/
def signedInt (x : ℤ) : Option Int32 := if FitsInt x then some (Int32.ofInt x) else none

/-- The exact result of an operation on 64 bits. -/
def signedLong (x : ℤ) : Option Int64 := if FitsLong x then some (Int64.ofInt x) else none

variable {x : ℤ}

theorem fitsInt_toInt (a : Int32) : FitsInt a.toInt := ⟨a.le_toInt, a.toInt_lt⟩

theorem signedInt_eq_some {a : Int32} : signedInt x = some a ↔ a.toInt = x := by
  unfold signedInt
  constructor
  · intro h
    split_ifs at h with hfits
    rw [← Option.some.inj h]
    exact Int32.toInt_ofInt_of_le hfits.1 hfits.2
  · rintro rfl
    rw [if_pos (fitsInt_toInt a), Int32.ofInt_toInt]

theorem exists_signedInt (h : FitsInt x) : ∃ a, signedInt x = some a ∧ a.toInt = x :=
  ⟨Int32.ofInt x, if_pos h, Int32.toInt_ofInt_of_le h.1 h.2⟩

theorem exists_signedLong (h : FitsLong x) : ∃ a, signedLong x = some a ∧ a.toInt = x :=
  ⟨Int64.ofInt x, if_pos h, Int64.toInt_ofInt_of_le h.1 h.2⟩

theorem signedInt_eq_none : signedInt x = none ↔ ¬ FitsInt x := by
  unfold signedInt
  split_ifs with h
  · exact iff_of_false nofun (not_not.mpr h)
  · exact iff_of_true rfl h

end SignedArith
