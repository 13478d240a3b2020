import Mathlib.Tactic

/-!
# Packed codes

Codewords of different lengths in bits, written one after another into a natural number, the
first one into the highest bits.

* `pack code length l`: the number, and `packLength length l`: how many bits it has;
* `pack_cons`: the head is above the rest;
* `leading_bits`, `pack_mod`: how a reader gets the head and goes on with the rest.
-/

namespace PackedCode

variable {α : Type*} {code length : α → ℕ} {a : α} {l : List α} {x d k : ℕ}

/-- The codewords of a list, one after another. -/
def pack (code length : α → ℕ) (l : List α) : ℕ :=
  l.foldl (fun acc a => acc <<< length a + code a) 0

/-- The bits of all codewords of a list. -/
def packLength (length : α → ℕ) (l : List α) : ℕ := (l.map length).sum

@[simp] theorem pack_nil : pack code length [] = 0 := rfl

@[simp] theorem packLength_nil : packLength length [] = 0 := rfl

@[simp] theorem packLength_cons :
    packLength length (a :: l) = length a + packLength length l := by
  simp [packLength]

/-- What is there already moves up by the bits of the list. -/
theorem foldl_pack (acc : ℕ) :
    l.foldl (fun acc a => acc <<< length a + code a) acc =
      acc * 2 ^ packLength length l + pack code length l := by
  induction l generalizing acc with
  | nil => simp
  | cons a l ih =>
      rw [pack, List.foldl_cons, List.foldl_cons, ih, ih, packLength_cons, Nat.shiftLeft_eq,
        Nat.zero_shiftLeft, pow_add]
      ring

theorem pack_cons :
    pack code length (a :: l) = code a * 2 ^ packLength length l + pack code length l := by
  rw [pack, List.foldl_cons, foldl_pack, Nat.zero_shiftLeft, zero_add]

/-- The number has no more bits than its codewords. -/
theorem pack_lt (h : ∀ a ∈ l, code a < 2 ^ length a) :
    pack code length l < 2 ^ packLength length l := by
  induction l with
  | nil => simp
  | cons a l ih =>
      have hhead := h a List.mem_cons_self
      have hrest := ih fun b hb => h b (List.mem_cons_of_mem a hb)
      rw [pack_cons, packLength_cons, pow_add]
      calc code a * 2 ^ packLength length l + pack code length l
          < code a * 2 ^ packLength length l + 2 ^ packLength length l := by omega
        _ = (code a + 1) * 2 ^ packLength length l := by ring
        _ ≤ 2 ^ length a * 2 ^ packLength length l := Nat.mul_le_mul_right _ hhead

/-- Without the highest bits the number holds the rest. -/
theorem pack_mod (h : ∀ a ∈ l, code a < 2 ^ length a)
    (hx : x % 2 ^ packLength length (a :: l) = pack code length (a :: l)) :
    x % 2 ^ packLength length l = pack code length l := by
  have hdvd : 2 ^ packLength length l ∣ 2 ^ packLength length (a :: l) := by
    rw [packLength_cons]
    exact pow_dvd_pow 2 (Nat.le_add_left _ _)
  rw [← Nat.mod_mod_of_dvd x hdvd, hx, pack_cons, Nat.mul_add_mod_self_right,
    Nat.mod_eq_of_lt (pack_lt h)]

/-- The highest `k` bits are those of the head, which has `d` more. -/
theorem leading_bits (h : ∀ a ∈ l, code a < 2 ^ length a)
    (hx : x % 2 ^ packLength length (a :: l) = pack code length (a :: l))
    (hk : length a = d + k) :
    x / 2 ^ (packLength length l + d) % 2 ^ k = code a / 2 ^ d := by
  have hall : packLength length (a :: l) = packLength length l + d + k := by
    rw [packLength_cons]
    omega
  rw [hall, pow_add] at hx
  rw [← Nat.mod_mul_right_div_self, hx, pack_cons, pow_add, ← Nat.div_div_eq_div_mul,
    Nat.mul_comm, Nat.mul_add_div (by positivity), Nat.div_eq_of_lt (pack_lt h), add_zero]

/-- The number has no fewer bits if the highest ones of the head are not all zero. -/
theorem le_pack (h : 2 ^ d ≤ code a) :
    2 ^ (packLength length l + d) ≤ pack code length (a :: l) := by
  rw [pack_cons, pow_add, Nat.mul_comm]
  exact (Nat.mul_le_mul_right _ h).trans (Nat.le_add_right _ _)

end PackedCode
