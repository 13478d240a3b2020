import Mathlib.Data.List.Basic
import Mathlib.Tactic

/-!
# Strings with a terminator

A string is the list of its characters before the terminator, and a pointer into it is an offset.

* `charAt`, `strchr`, `strrchr`: the character under a pointer, and the search for a character;
* `strchr_append`, `strrchr_append`: where the character is found;
* `strchr_eq_some_iff`: what the place that is found has.
-/

namespace CString

variable {s pre a b : List UInt8} {c : UInt8} {p : ℕ}

/-- The character under a pointer; behind the last one there is the terminator. -/
def charAt (s : List UInt8) (p : ℕ) : UInt8 :=
  s.getD p 0

/-- The first place from `p` on with the character `c`. -/
def strchr (s : List UInt8) (p : ℕ) (c : UInt8) : Option ℕ :=
  ((s.drop p).findIdx? (· == c)).map (p + ·)

/-- The last place with the character `c`. -/
def strrchr : List UInt8 → UInt8 → Option ℕ
  | [], _ => none
  | x :: s, c =>
      match strrchr s c with
      | some p => some (p + 1)
      | none => if x = c then some 0 else none

theorem charAt_append (h : p = pre.length) : charAt (pre ++ c :: b) p = c := by
  subst h
  simp [charAt]

theorem charAt_length : charAt s s.length = 0 := by
  simp [charAt]

theorem findIdx?_eq_none (h : c ∉ s) : s.findIdx? (· == c) = none := by
  rw [List.findIdx?_eq_none_iff]
  intro x hx
  rw [beq_eq_false_iff_ne]
  rintro rfl
  exact h hx

/-- The character is found behind a text without it. -/
theorem strchr_append (hp : p = pre.length) (h : c ∉ a) :
    strchr (pre ++ (a ++ c :: b)) p c = some (p + a.length) := by
  subst hp
  rw [strchr, List.drop_left, List.findIdx?_append, findIdx?_eq_none h, Option.none_or,
    List.findIdx?_cons, beq_self_eq_true, if_pos rfl, Option.map_some, Option.map_some,
    Nat.zero_add]

/-- If the character is found at all, it is behind a text without it. -/
theorem strchr_ge (hp : p = pre.length) (h : c ∉ a) {q : ℕ}
    (hq : strchr (pre ++ (a ++ b)) p c = some q) : p + a.length ≤ q := by
  subst hp
  rw [strchr, List.drop_left, List.findIdx?_append, findIdx?_eq_none h, Option.none_or,
    Option.map_map, Option.map_eq_some_iff] at hq
  obtain ⟨i, -, rfl⟩ := hq
  simp only [Function.comp_apply]
  omega

theorem strchr_eq_none (h : c ∉ s) : strchr s p c = none := by
  rw [strchr, findIdx?_eq_none fun hmem => h (List.mem_of_mem_drop hmem), Option.map_none]

theorem charAt_of_lt {i : ℕ} (h : i < s.length) : charAt s i = s[i] := by
  rw [charAt, List.getD_eq_getElem?_getD, List.getElem?_eq_getElem h, Option.getD_some]

theorem lt_length_of_charAt {i : ℕ} (h : charAt s i ≠ 0) : i < s.length := by
  by_contra hge
  apply h
  rw [charAt, List.getD_eq_getElem?_getD, List.getElem?_eq_none (by omega), Option.getD_none]

/-- The first place with the character: it has it, and no place before it does. -/
theorem strchr_eq_some_iff {q : ℕ} :
    strchr s p c = some q ↔
      p ≤ q ∧ q < s.length ∧ charAt s q = c ∧ ∀ i, p ≤ i → i < q → charAt s i ≠ c := by
  rw [strchr, Option.map_eq_some_iff]
  constructor
  · rintro ⟨j, hj, rfl⟩
    obtain ⟨hlt, hat, hbefore⟩ := List.findIdx?_eq_some_iff_getElem.mp hj
    rw [List.length_drop] at hlt
    rw [List.getElem_drop, beq_iff_eq] at hat
    refine ⟨by omega, by omega, ?_, ?_⟩
    · rw [charAt_of_lt (by omega), hat]
    · intro i hi hlt
      have hnot := hbefore (i - p) (by omega)
      rw [List.getElem_drop, beq_iff_eq] at hnot
      rw [charAt_of_lt (by omega)]
      convert hnot using 3
      omega
  · rintro ⟨hle, hlt, hat, hbefore⟩
    refine ⟨q - p, ?_, by omega⟩
    rw [List.findIdx?_eq_some_iff_getElem]
    refine ⟨by rw [List.length_drop]; omega, ?_, ?_⟩
    · rw [List.getElem_drop, beq_iff_eq, ← hat, charAt_of_lt hlt]
      congr 1
      omega
    · intro j hj
      have hnot := hbefore (p + j) (by omega) (by omega)
      rw [charAt_of_lt (by omega)] at hnot
      rw [List.getElem_drop, beq_iff_eq]
      exact hnot

theorem strrchr_lt {q : ℕ} (h : strrchr s c = some q) : q < s.length := by
  induction s generalizing q with
  | nil => exact nomatch h
  | cons x s ih =>
      rw [strrchr] at h
      rw [List.length_cons]
      cases hs : strrchr s c with
      | some r =>
          rw [hs] at h
          obtain rfl := Option.some.inj h
          have hlt := ih hs
          omega
      | none =>
          rw [hs] at h
          dsimp only at h
          split_ifs at h with hx
          obtain rfl := Option.some.inj h
          omega

theorem strrchr_eq_none (h : c ∉ s) : strrchr s c = none := by
  induction s with
  | nil => rfl
  | cons x s ih =>
      rw [List.mem_cons, not_or] at h
      rw [strrchr, ih h.2]
      exact if_neg (Ne.symm h.1)

/-- The character is found before a text without it. -/
theorem strrchr_append (h : c ∉ b) : strrchr (a ++ c :: b) c = some a.length := by
  induction a with
  | nil => rw [List.nil_append, strrchr, strrchr_eq_none h]; exact if_pos rfl
  | cons x a ih => rw [List.cons_append, strrchr, ih, List.length_cons]

end CString
