import Mathlib.Tactic

/-!
# Code points as octets

* `octets x`: a lead octet and up to three continuation octets of six bits each, for numbers
  below `2 ^ 21`;
* `low_mask`, `high_mask`, `mask_fields`, `or_eq_add`: masks and unions of bits as arithmetic.

Numbers that are half of a surrogate pair have octets as any others.
-/

namespace Utf8

/-- The octets of a number. -/
def octets (x : ℕ) : List ℕ :=
  if x ≤ 0x7F then [x]
  else if x ≤ 0x7FF then [0xC0 + x / 2 ^ 6, 0x80 + x % 2 ^ 6]
  else if x ≤ 0xFFFF then [0xE0 + x / 2 ^ 12, 0x80 + x / 2 ^ 6 % 2 ^ 6, 0x80 + x % 2 ^ 6]
  else
    [0xF0 + x / 2 ^ 18, 0x80 + x / 2 ^ 12 % 2 ^ 6, 0x80 + x / 2 ^ 6 % 2 ^ 6, 0x80 + x % 2 ^ 6]

variable {x y : ℕ}

theorem octets_one (h : x ≤ 0x7F) : octets x = [x] := if_pos h

theorem octets_two (hlow : 0x7F < x) (hhigh : x ≤ 0x7FF) :
    octets x = [0xC0 + x / 2 ^ 6, 0x80 + x % 2 ^ 6] := by
  rw [octets, if_neg (Nat.not_le_of_lt hlow), if_pos hhigh]

theorem octets_three (hlow : 0x7FF < x) (hhigh : x ≤ 0xFFFF) :
    octets x = [0xE0 + x / 2 ^ 12, 0x80 + x / 2 ^ 6 % 2 ^ 6, 0x80 + x % 2 ^ 6] := by
  rw [octets, if_neg (by omega), if_neg (by omega), if_pos hhigh]

theorem octets_four (hlow : 0xFFFF < x) :
    octets x = [0xF0 + x / 2 ^ 18, 0x80 + x / 2 ^ 12 % 2 ^ 6, 0x80 + x / 2 ^ 6 % 2 ^ 6,
      0x80 + x % 2 ^ 6] := by
  rw [octets, if_neg (by omega), if_neg (by omega), if_neg (by omega)]

/-! ### Masks -/

theorem low_mask (x k : ℕ) : x &&& (2 ^ k - 1) = x % 2 ^ k := Nat.and_two_pow_sub_one_eq_mod x k

/-- A mask of two fields is two masks of one field. -/
theorem mask_fields {k a b m n : ℕ} (hb : b < 2 ^ k) (hn : n < 2 ^ k) :
    (a * 2 ^ k + b) &&& (m * 2 ^ k + n) = (a &&& m) * 2 ^ k + (b &&& n) := by
  have hand : b &&& n < 2 ^ k := Nat.and_lt_two_pow b hn
  refine Nat.eq_of_testBit_eq fun i => ?_
  rw [Nat.testBit_and, Nat.mul_comm a, Nat.mul_comm m, Nat.mul_comm (a &&& m),
    Nat.testBit_two_pow_mul_add a hb, Nat.testBit_two_pow_mul_add m hn,
    Nat.testBit_two_pow_mul_add _ hand]
  split_ifs <;> rw [Nat.testBit_and]

/-- A mask of the highest `j` bits. -/
theorem high_mask {x j k : ℕ} (hx : x < 2 ^ (j + k)) :
    x &&& (2 ^ j - 1) * 2 ^ k = x / 2 ^ k * 2 ^ k := by
  have hpos : 0 < 2 ^ k := Nat.two_pow_pos k
  have hhigh : x / 2 ^ k < 2 ^ j := by
    rw [Nat.div_lt_iff_lt_mul hpos, ← pow_add]
    exact hx
  have hsplit : x / 2 ^ k * 2 ^ k + x % 2 ^ k = x := Nat.div_add_mod' x (2 ^ k)
  calc x &&& (2 ^ j - 1) * 2 ^ k
      = (x / 2 ^ k * 2 ^ k + x % 2 ^ k) &&& ((2 ^ j - 1) * 2 ^ k + 0) := by
        rw [hsplit, add_zero]
    _ = (x / 2 ^ k &&& (2 ^ j - 1)) * 2 ^ k + (x % 2 ^ k &&& 0) :=
        mask_fields (Nat.mod_lt _ hpos) hpos
    _ = x / 2 ^ k * 2 ^ k := by
        rw [low_mask, Nat.mod_eq_of_lt hhigh, Nat.and_zero, add_zero]

/-- The masks on the lead of an octet. -/
theorem and_0xC0 {x : ℕ} (hx : x < 256) : x &&& 0xC0 = x / 2 ^ 6 * 2 ^ 6 :=
  high_mask (j := 2) (k := 6) hx

theorem and_0xE0 {x : ℕ} (hx : x < 256) : x &&& 0xE0 = x / 2 ^ 5 * 2 ^ 5 :=
  high_mask (j := 3) (k := 5) hx

theorem and_0xF0 {x : ℕ} (hx : x < 256) : x &&& 0xF0 = x / 2 ^ 4 * 2 ^ 4 :=
  high_mask (j := 4) (k := 4) hx

theorem and_0xF8 {x : ℕ} (hx : x < 256) : x &&& 0xF8 = x / 2 ^ 3 * 2 ^ 3 :=
  high_mask (j := 5) (k := 3) hx

/-- Bits that do not meet are added. -/
theorem or_eq_add (x : ℕ) {y k : ℕ} (hy : y < 2 ^ k) : x * 2 ^ k ||| y = x * 2 ^ k + y := by
  rw [Nat.mul_comm, Nat.two_pow_add_eq_or_of_lt hy]

/-- Six more bits of a number. -/
theorem six_more (x k : ℕ) :
    x / 2 ^ (k + 6) * 2 ^ (k + 6) + x / 2 ^ k % 2 ^ 6 * 2 ^ k = x / 2 ^ k * 2 ^ k := by
  calc x / 2 ^ (k + 6) * 2 ^ (k + 6) + x / 2 ^ k % 2 ^ 6 * 2 ^ k
      = (x / 2 ^ k / 2 ^ 6 * 2 ^ 6 + x / 2 ^ k % 2 ^ 6) * 2 ^ k := by
        rw [Nat.div_div_eq_div_mul, ← pow_add]
        ring
    _ = x / 2 ^ k * 2 ^ k := by rw [Nat.div_add_mod']

end Utf8
