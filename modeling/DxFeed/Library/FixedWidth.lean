import Mathlib

/-!
# Fixed-width integers as numbers

* masks on natural numbers: `or_eq_add`, `and_eq_add`;
* the pair of shifts that extends a sign, on words of any width;
* `word x`, the unsigned number in an `Int32`, and its arithmetic;
* `octet b`, the unsigned number in a byte, and the octet of a truncated integer.
-/

namespace FixedWidth

/-! ### Masks -/

/-- A mask on the bits from `i` on is added to a number below `2 ^ i`. -/
theorem or_eq_add {m i r : ℕ} (hm : m % 2 ^ i = 0) (hr : r < 2 ^ i) : m ||| r = m + r := by
  obtain ⟨c, rfl⟩ := Nat.dvd_of_mod_eq_zero hm
  exact (Nat.two_pow_add_eq_or_of_lt hr c).symm

/-- A mask whose bits below `i` are all set only touches the bits from `i` on. -/
theorem and_eq_add {i m h x : ℕ} (hx : x / 2 ^ i = h) :
    (2 ^ i * m + (2 ^ i - 1)) &&& x = 2 ^ i * (h &&& m) + x % 2 ^ i := by
  have hpos : 0 < 2 ^ i := Nat.two_pow_pos i
  have hlow : 2 ^ i - 1 < 2 ^ i := by omega
  rw [Nat.and_comm, ← Nat.div_add_mod (x &&& (2 ^ i * m + (2 ^ i - 1))) (2 ^ i)]
  rw [Nat.and_div_two_pow, Nat.and_mod_two_pow, hx]
  rw [Nat.mul_add_div hpos, Nat.div_eq_of_lt hlow, Nat.mul_add_mod, Nat.mod_eq_of_lt hlow]
  rw [Nat.and_two_pow_sub_one_of_lt_two_pow (Nat.mod_lt x hpos)]
  simp

/-! ### Balanced remainders and shifts -/

/-- The sign of a number with a low part `y` is the sign of its high part. -/
theorem mul_add_bmod_mul (a y : ℤ) {m c : ℕ} (hm : 0 < m) (h2 : 2 ∣ m) (hy : 0 ≤ y) (hyc : y < c) :
    (a * c + y).bmod (m * c) = a.bmod m * c + y := by
  obtain ⟨h, rfl⟩ := h2
  have hlow : -(h : ℤ) ≤ a.bmod (2 * h) := by
    have := Int.le_bmod (x := a) hm
    omega
  have hhigh : a.bmod (2 * h) ≤ h - 1 := by
    have := Int.bmod_lt (x := a) hm
    omega
  have hc : (0 : ℤ) < c := by omega
  have hhalf : ((2 * h * c : ℕ) : ℤ) = 2 * (h * c) := by push_cast; ring
  rw [Int.bmod_eq_iff (Nat.mul_pos hm (by exact_mod_cast hc)), hhalf]
  refine ⟨?_, ?_, ?_⟩
  · have := mul_le_mul_of_nonneg_right hlow hc.le
    rw [neg_mul] at this
    omega
  · have := mul_le_mul_of_nonneg_right hhigh hc.le
    rw [sub_mul, one_mul] at this
    omega
  · rw [add_sub_add_right_eq_sub, ← sub_mul, ← mul_assoc]
    exact mul_dvd_mul_right (by exact_mod_cast Int.dvd_bmod_sub_self) _

theorem mul_bmod_mul (a : ℤ) {m c : ℕ} (hm : 0 < m) (hc : 0 < c) (h2 : 2 ∣ m) :
    (a * c).bmod (m * c) = a.bmod m * c := by
  simpa using mul_add_bmod_mul a 0 hm h2 le_rfl (by exact_mod_cast hc)

theorem bmod_eq_of_eq_add {a x : ℤ} {m : ℕ} (c : ℤ) (h : a = x + m * c) (hlow : -(m / 2) ≤ x)
    (hhigh : x < (m + 1) / 2) : a.bmod m = x := by
  rw [h, Int.add_mul_bmod_self_left, Int.bmod_eq_of_le hlow hhigh]

section Shifts

variable {w k : ℕ}

private theorem two_pow_split (hk : k < w) : 2 ^ w = 2 ^ (w - k) * 2 ^ k := by
  rw [← pow_add, Nat.sub_add_cancel hk.le]

/-- The pair of shifts `(x << k) >> k` on a signed word keeps the low `w - k` bits and
extends their sign. -/
theorem toInt_shiftLeft_sshiftRight (x : BitVec w) (hk : k < w) :
    ((x <<< k).sshiftRight k).toInt = (x.toNat : ℤ).bmod (2 ^ (w - k)) := by
  have h2 : 2 ∣ 2 ^ (w - k) := dvd_pow_self 2 (by omega)
  rw [BitVec.toInt_sshiftRight, BitVec.toInt_shiftLeft, Int.shiftRight_eq_div_pow,
    Nat.shiftLeft_eq, two_pow_split hk, Nat.cast_mul,
    mul_bmod_mul _ (Nat.two_pow_pos _) (Nat.two_pow_pos _) h2]
  exact Int.mul_ediv_cancel _ (by positivity)

/-- The same pair on an unsigned word clears the high bits. -/
theorem toNat_shiftLeft_ushiftRight (x : BitVec w) (hk : k < w) :
    ((x <<< k) >>> k).toNat = x.toNat % 2 ^ (w - k) := by
  rw [BitVec.toNat_ushiftRight, BitVec.toNat_shiftLeft, Nat.shiftLeft_eq, two_pow_split hk,
    Nat.mul_mod_mul_right, Nat.shiftRight_eq_div_pow, Nat.mul_div_cancel _ (Nat.two_pow_pos k)]

end Shifts

/-! ### Words -/

/-- The unsigned number with the bits of `x`. -/
def word (x : Int32) : ℕ := x.toBitVec.toNat

theorem word_lt (x : Int32) : word x < 2 ^ 32 := x.toBitVec.isLt

theorem word_inj {x y : Int32} : word x = word y ↔ x = y := by
  rw [word, word, BitVec.toNat_inj, Int32.toBitVec_inj]

theorem word_eq (x : Int32) : (word x : ℤ) = x.toInt % 2 ^ 32 := by
  have h := word_lt x
  rw [← Int32.toInt_toBitVec, BitVec.toInt_eq_toNat_bmod, Int.bmod_def]
  show (word x : ℤ) = _
  unfold word at h ⊢
  omega

theorem toInt_eq_word {x : Int32} (h : word x < 2 ^ 31) : x.toInt = word x := by
  have hmod := word_eq x
  have hlow := x.le_toInt
  have hhigh := x.toInt_lt
  omega

@[simp] theorem word_toInt32 (x : UInt32) : word x.toInt32 = x.toNat := rfl

theorem lt_iff_word {x : Int32} (c : Int32) (hx : word x < 2 ^ 31) (hc : word c < 2 ^ 31) :
    x < c ↔ word x < word c := by
  rw [Int32.lt_iff_toInt_lt, toInt_eq_word hx, toInt_eq_word hc, Nat.cast_lt]

/-- A right shift by the number of positions `k` that `s` stands for. -/
theorem toInt_shiftRight (x : Int32) {s : Int32} {k : ℕ} (hs : (s.toBitVec.smod 32).toNat = k) :
    (x >>> s).toInt = x.toInt / 2 ^ k := by
  rw [← Int32.toInt_toBitVec, Int32.toBitVec_shiftRight]
  show (x.toBitVec.sshiftRight (s.toBitVec.smod 32).toNat).toInt = _
  rw [hs, BitVec.toInt_sshiftRight, Int.shiftRight_eq_div_pow, Int32.toInt_toBitVec]
  norm_cast

/-- A left shift by the number of positions `k` that `s` stands for. -/
theorem word_shiftLeft_mod (x s : Int32) {k : ℕ} (hs : (s.toBitVec.smod 32).toNat = k) :
    word (x <<< s) = word x * 2 ^ k % 2 ^ 32 := by
  unfold word
  rw [Int32.toBitVec_shiftLeft]
  show (x.toBitVec <<< (s.toBitVec.smod 32).toNat).toNat = _
  rw [hs, BitVec.toNat_shiftLeft, Nat.shiftLeft_eq]

theorem word_shiftLeft (x s : Int32) {k : ℕ} (hs : (s.toBitVec.smod 32).toNat = k)
    (hx : word x * 2 ^ k < 2 ^ 32) : word (x <<< s) = word x * 2 ^ k := by
  rw [word_shiftLeft_mod x s hs, Nat.mod_eq_of_lt hx]

theorem word_or_mask (mask value : Int32) (m i : ℕ) (hmask : word mask = m)
    (hm : m % 2 ^ i = 0) (hr : word value < 2 ^ i) :
    word (mask ||| value) = m + word value := by
  rw [← or_eq_add hm hr, ← hmask]
  simp [word]

theorem word_and_mask (mask value : Int32) (i m h : ℕ)
    (hmask : word mask = 2 ^ i * m + (2 ^ i - 1)) (hvalue : word value / 2 ^ i = h) :
    word (mask &&& value) = 2 ^ i * (h &&& m) + word value % 2 ^ i := by
  rw [← and_eq_add hvalue, ← hmask]
  simp [word]

/-- `x << s | y` for a number `y` that fits in the freed bits. -/
theorem word_shiftLeft_or (x y s : Int32) {k : ℕ} (hs : (s.toBitVec.smod 32).toNat = k)
    (hx : word x * 2 ^ k < 2 ^ 32) (hy : word y < 2 ^ k) :
    word (x <<< s ||| y) = word x * 2 ^ k + word y :=
  word_or_mask _ _ _ k (word_shiftLeft x s hs hx) (Nat.mul_mod_left _ _) hy

/-- `(x << s) >> s` keeps the low `32 - k` bits and extends their sign. -/
theorem toInt_signExtend (x s : Int32) {k : ℕ} (hs : (s.toBitVec.smod 32).toNat = k)
    (hk : k < 32) : ((x <<< s) >>> s).toInt = (word x : ℤ).bmod (2 ^ (32 - k)) := by
  rw [word, ← toInt_shiftLeft_sshiftRight x.toBitVec hk, ← Int32.toInt_toBitVec]
  show ((x.toBitVec <<< (s.toBitVec.smod 32).toNat).sshiftRight
    (s.toBitVec.smod 32).toNat).toInt = _
  rw [hs]

theorem toInt_eq_bmod (x : Int32) : x.toInt = (word x : ℤ).bmod (2 ^ 32) := by
  rw [← Int32.toInt_toBitVec, BitVec.toInt_eq_toNat_bmod]
  rfl

/-- A 64-bit value is its high word times `2 ^ 32` and its low word. -/
theorem toInt_eq_high_low (value : Int64) :
    value.toInt = (value >>> 32).toInt32.toInt * 2 ^ 32 + word value.toInt32 := by
  have hshift : (value >>> 32).toInt = value.toInt / 2 ^ 32 := by
    show (value.toBitVec.sshiftRight 32).toInt = _
    rw [BitVec.toInt_sshiftRight, Int.shiftRight_eq_div_pow]
    rfl
  have hlow := word_eq value.toInt32
  have hmin := value.le_toInt
  have hmax := value.toInt_lt
  rw [Int64.toInt_toInt32, Int.bmod_def] at hlow
  rw [Int64.toInt_toInt32, hshift, Int.bmod_def]
  omega

/-- `(high << 32) | (low & 0xFFFFFFFF)` puts two words together. -/
theorem toInt_high_or_low (high low : Int32) :
    (high.toInt64 <<< 32 ||| (low.toInt64 &&& 0xFFFFFFFF)).toInt =
      high.toInt * 2 ^ 32 + word low := by
  have hl := word_lt low
  have hh := word_lt high
  have hlow : (low.toInt64 &&& 0xFFFFFFFF).toBitVec.toNat = word low := by
    show (low.toBitVec.signExtend 64 &&& 0xFFFFFFFF#64).toNat = low.toBitVec.toNat
    rw [BitVec.toNat_and]
    show _ &&& (2 ^ 32 - 1) = _
    rw [Nat.and_two_pow_sub_one_eq_mod, BitVec.toNat_signExtend]
    unfold word at hl
    split_ifs <;> simp <;> omega
  have hhigh : (high.toInt64 <<< 32).toBitVec.toNat = word high * 2 ^ 32 := by
    show (high.toBitVec.signExtend 64 <<< 32).toNat = _
    rw [BitVec.toNat_shiftLeft, Nat.shiftLeft_eq, BitVec.toNat_signExtend]
    unfold word at hh ⊢
    split_ifs <;> simp <;> omega
  rw [← Int64.toInt_toBitVec, BitVec.toInt_eq_toNat_bmod, Int64.toBitVec_or, BitVec.toNat_or,
    hhigh, hlow, or_eq_add (Nat.mul_mod_left _ _) hl, toInt_eq_bmod high]
  simp only [Int.bmod_def]
  omega

/-- A 64-bit value that differs from its extended low word does not fit in 32 bits. -/
theorem wide_of_ne {value : Int64} (h : value ≠ value.toInt32.toInt64) :
    value.toInt < -2 ^ 31 ∨ 2 ^ 31 ≤ value.toInt := by
  by_contra hsmall
  apply h
  rw [← Int64.toInt_inj, Int32.toInt_toInt64, Int64.toInt_toInt32, Int.bmod_def]
  omega

/-! ### Octets -/

/-- The unsigned number with the bits of a byte. -/
def octet (b : Int8) : ℕ := b.toBitVec.toNat

theorem octet_lt (b : Int8) : octet b < 256 := b.toBitVec.isLt

theorem octet_eq (b : Int8) : (octet b : ℤ) = b.toInt % 2 ^ 8 := by
  have h := octet_lt b
  rw [← Int8.toInt_toBitVec, BitVec.toInt_eq_toNat_bmod, Int.bmod_def]
  unfold octet at h ⊢
  omega

/-- Truncation `(dxf_byte_t)x` keeps the number modulo 256. -/
theorem octet_toInt8 (x : Int32) : (octet x.toInt8 : ℤ) = x.toInt % 256 := by
  have hoctet := octet_eq x.toInt8
  rw [Int32.toInt_toInt8, Int.bmod_def] at hoctet
  omega

/-- `b & 0xFF` for a byte promoted to a word. -/
theorem word_and_0xFF (b : Int8) : word (b.toInt32 &&& 0xFF) = octet b := by
  show ((b.toBitVec.signExtend 32) &&& 0xFF#32).toNat = b.toBitVec.toNat
  generalize b.toBitVec = x
  revert x
  decide +kernel

end FixedWidth
