import Mathlib

/-!
# A prefix code for 64-bit signed numbers

A number of size class `k` takes `k + 1` octets, most significant first.  The first octet
starts with `k` one bits (and a zero bit when `k < 8`); the remaining `width k` bits hold
the number in two's complement.

* `sizeClass v`: the least class with room for `v`;
* `encode v`: the octets of a number;
* `numberOf k os`: the number that the octets of class `k` hold, with `numberOf_pattern`.
-/

namespace PrefixCode

/-- The `n` least significant base-256 digits of `x`, most significant first. -/
def beOctets : ℕ → ℕ → List ℕ
  | 0, _ => []
  | n + 1, x => x / 256 ^ n % 256 :: beOctets n x

/-- The number denoted by a list of octets, most significant first. -/
def beValue (os : List ℕ) : ℕ :=
  os.foldl (fun acc o => acc * 256 + o) 0

/-- The number of bits left for the number. -/
def width (k : ℕ) : ℕ :=
  if k < 8 then 7 * (k + 1) else 64

/-- The leading bits of class `k`, in place. -/
def header (k : ℕ) : ℕ :=
  if k < 8 then (2 ^ (k + 1) - 2) * 2 ^ width k else 255 * 2 ^ width k

def Fits (k : ℕ) (v : ℤ) : Prop :=
  -2 ^ (width k - 1) ≤ v ∧ v < 2 ^ (width k - 1)

instance (k : ℕ) (v : ℤ) : Decidable (Fits k v) := by
  unfold Fits; infer_instance

/-- The least class with room for `v`. -/
def sizeClass (v : ℤ) : ℕ :=
  if Fits 0 v then 0 else if Fits 1 v then 1 else if Fits 2 v then 2
  else if Fits 3 v then 3 else if Fits 4 v then 4 else if Fits 5 v then 5
  else if Fits 6 v then 6 else if Fits 7 v then 7 else 8

/-- The class announced by a first octet: the number of its leading one bits. -/
def classOf (o : ℕ) : ℕ :=
  if o < 0x80 then 0 else if o < 0xC0 then 1 else if o < 0xE0 then 2
  else if o < 0xF0 then 3 else if o < 0xF8 then 4 else if o < 0xFC then 5
  else if o < 0xFE then 6 else if o < 0xFF then 7 else 8

/-- The two's complement pattern of `v` in class `k`, with the leading bits. -/
def pattern (k : ℕ) (v : ℤ) : ℕ :=
  header k + (v % 2 ^ width k).toNat

/-- The number that the octets of class `k` hold. -/
def numberOf (k : ℕ) (os : List ℕ) : ℤ :=
  (beValue os : ℤ).bmod (2 ^ width k)

def encode (v : ℤ) : List ℕ :=
  beOctets (sizeClass v + 1) (pattern (sizeClass v) v)

@[simp] theorem length_beOctets (n x : ℕ) : (beOctets n x).length = n := by
  induction n with
  | zero => rfl
  | succ n ih => simp [beOctets, ih]

theorem beOctets_mod (n x : ℕ) : beOctets n (x % 256 ^ n) = beOctets n x := by
  induction n generalizing x with
  | zero => rfl
  | succ n ih =>
      rw [beOctets, beOctets, ← ih (x % 256 ^ (n + 1)), ← ih x, pow_succ, Nat.mod_mul_right_mod,
        Nat.mod_mul_right_div_self, Nat.mod_mod]

/-- The octets of a number split into a high and a low part. -/
theorem beOctets_add (m n x y : ℕ) (hy : y < 256 ^ n) :
    beOctets (m + n) (x * 256 ^ n + y) = beOctets m x ++ beOctets n y := by
  induction m with
  | zero =>
      rw [Nat.zero_add, ← beOctets_mod, Nat.mul_add_mod', Nat.mod_eq_of_lt hy]
      rfl
  | succ m ih =>
      have hpos : 0 < 256 ^ n := by positivity
      have hdigit : (x * 256 ^ n + y) / 256 ^ (m + n) = x / 256 ^ m := by
        rw [add_comm m n, pow_add, ← Nat.div_div_eq_div_mul, Nat.add_comm, Nat.add_mul_div_right _ _ hpos,
          Nat.div_eq_of_lt hy, Nat.zero_add]
      rw [show m + 1 + n = m + n + 1 by omega, beOctets, beOctets, ih, hdigit, List.cons_append]

private theorem foldl_octets (os : List ℕ) (acc : ℕ) :
    os.foldl (fun acc o => acc * 256 + o) acc = acc * 256 ^ os.length + beValue os := by
  unfold beValue
  induction os generalizing acc with
  | nil => simp
  | cons o os ih =>
      rw [List.foldl_cons, List.foldl_cons, ih, ih (0 * 256 + o), List.length_cons, pow_succ]
      ring

/-- The first octet weighs most. -/
theorem beValue_cons (o : ℕ) (os : List ℕ) :
    beValue (o :: os) = o * 256 ^ os.length + beValue os := by
  rw [beValue, List.foldl_cons, foldl_octets, zero_mul, zero_add]

theorem beValue_append (os os' : List ℕ) :
    beValue (os ++ os') = beValue os * 256 ^ os'.length + beValue os' := by
  rw [beValue, List.foldl_append, foldl_octets]
  rfl

theorem beValue_lt {os : List ℕ} (h : ∀ o ∈ os, o < 256) : beValue os < 256 ^ os.length := by
  induction os with
  | nil => simp [beValue]
  | cons o os ih =>
      have ho : o < 256 := h o List.mem_cons_self
      have hos : beValue os < 256 ^ os.length := ih fun o' ho' => h o' (List.mem_cons_of_mem o ho')
      rw [beValue_cons, List.length_cons, pow_succ]
      calc o * 256 ^ os.length + beValue os < o * 256 ^ os.length + 256 ^ os.length :=
            Nat.add_lt_add_left hos _
        _ = (o + 1) * 256 ^ os.length := by ring
        _ ≤ 256 * 256 ^ os.length := Nat.mul_le_mul_right _ ho
        _ = 256 ^ os.length * 256 := mul_comm _ _

theorem beValue_beOctets (n x : ℕ) : beValue (beOctets n x) = x % 256 ^ n := by
  induction n with
  | zero => simp [beOctets, beValue, Nat.mod_one]
  | succ n ih =>
      rw [beOctets, beValue_cons, length_beOctets, ih, pow_succ, Nat.mod_mul (a := 256 ^ n)]
      ring

theorem lt_of_mem_beOctets {n x o : ℕ} (h : o ∈ beOctets n x) : o < 256 := by
  induction n with
  | zero => simp [beOctets] at h
  | succ n ih =>
      rcases List.mem_cons.mp h with rfl | ho
      · exact Nat.mod_lt _ (by norm_num)
      · exact ih ho

@[simp] theorem beOctets_zero (n : ℕ) : beOctets n 0 = List.replicate n 0 := by
  induction n with
  | zero => rfl
  | succ n ih => rw [beOctets, Nat.zero_div, Nat.zero_mod, ih, List.replicate_succ]

/-- A value with room to spare has zeros in front. -/
theorem beOctets_add_of_lt {n x : ℕ} (m : ℕ) (hx : x < 256 ^ n) :
    beOctets (m + n) x = List.replicate m 0 ++ beOctets n x := by
  have h := beOctets_add m n 0 x hx
  rwa [Nat.zero_mul, Nat.zero_add, beOctets_zero] at h

theorem beOctets_beValue {os : List ℕ} (h : ∀ o ∈ os, o < 256) :
    beOctets os.length (beValue os) = os := by
  induction os with
  | nil => rfl
  | cons o os ih =>
      have ho : o < 256 := h o List.mem_cons_self
      have hos : ∀ o' ∈ os, o' < 256 := fun o' ho' => h o' (List.mem_cons_of_mem o ho')
      have hfirst : beOctets 1 o = [o] := by
        rw [beOctets, beOctets, pow_zero, Nat.div_one, Nat.mod_eq_of_lt ho]
      rw [beValue_cons, List.length_cons, Nat.add_comm os.length 1,
        beOctets_add 1 os.length o _ (beValue_lt hos), hfirst, ih hos, List.singleton_append]

theorem sizeClass_le (v : ℤ) : sizeClass v ≤ 8 := by
  unfold sizeClass
  grind

theorem fits_sizeClass {v : ℤ} (h : Fits 8 v) : Fits (sizeClass v) v := by
  unfold sizeClass
  grind

theorem width_mono {j k : ℕ} (h : j ≤ k) (hk : k ≤ 8) : width j ≤ width k := by
  unfold width
  split_ifs <;> omega

theorem Fits.mono {j k : ℕ} {v : ℤ} (hv : Fits j v) (h : j ≤ k) (hk : k ≤ 8) : Fits k v := by
  have hpow : (2 : ℤ) ^ (width j - 1) ≤ 2 ^ (width k - 1) :=
    pow_le_pow_right₀ (by norm_num) (Nat.sub_le_sub_right (width_mono h hk) 1)
  unfold Fits at hv ⊢
  omega

theorem sizeClass_zero {v : ℤ} (h : Fits 0 v) : sizeClass v = 0 :=
  if_pos h

theorem sizeClass_succ {k : ℕ} {v : ℤ} (hk : k < 8) (hlow : ¬ Fits k v) (h : Fits (k + 1) v) :
    sizeClass v = k + 1 := by
  have hnot : ∀ j ≤ k, ¬ Fits j v := fun j hj hv => hlow (hv.mono hj hk.le)
  unfold sizeClass
  interval_cases k <;> simp_all

theorem sizeClass_le_of_fits {k : ℕ} {v : ℤ} (hk : k ≤ 8) (h : Fits k v) : sizeClass v ≤ k := by
  induction k with
  | zero => exact (sizeClass_zero h).le
  | succ k ih =>
      by_cases hlow : Fits k v
      · exact (ih (Nat.le_of_succ_le hk) hlow).trans (Nat.le_succ k)
      · exact (sizeClass_succ hk hlow h).le

theorem length_encode (v : ℤ) : (encode v).length = sizeClass v + 1 := by
  rw [encode, length_beOctets]

theorem toNat_emod_two_pow (v : ℤ) (w : ℕ) : ((v % 2 ^ w).toNat : ℤ) = v % 2 ^ w :=
  Int.toNat_of_nonneg (Int.emod_nonneg v (by positivity))

theorem toNat_emod_lt (v : ℤ) (w : ℕ) : (v % 2 ^ w).toNat < 2 ^ w := by
  zify
  rw [toNat_emod_two_pow]
  exact Int.emod_lt_of_pos v (by positivity)

theorem classOf_le (o : ℕ) : classOf o ≤ 8 := by
  unfold classOf
  grind

/-- First octets of a class are those from `256 - 2 ^ (8 - k)` on, up to the next class. -/
theorem classOf_bounds (o : ℕ) :
    256 - 2 ^ (8 - classOf o) ≤ o ∧ (classOf o < 8 → o < 256 - 2 ^ (8 - classOf o) / 2) := by
  unfold classOf
  grind

theorem le_of_classOf {k o : ℕ} (h : classOf o = k) : 256 - 2 ^ (8 - k) ≤ o :=
  h ▸ (classOf_bounds o).1

theorem lt_of_classOf {k o : ℕ} (h : classOf o = k) (hk : k < 8) :
    o < 256 - 2 ^ (8 - k) / 2 := by
  subst h
  exact (classOf_bounds o).2 hk

theorem two_pow_le_half {j k : ℕ} (hjk : j < k) (hk : k ≤ 8) : 2 ^ (8 - k) ≤ 2 ^ (8 - j) / 2 := by
  rw [show 8 - j = 8 - (j + 1) + 1 by omega, pow_succ, Nat.mul_div_cancel _ two_pos]
  exact Nat.pow_le_pow_right two_pos (by omega)

/-- The ranges of first octets do not overlap. -/
theorem classOf_eq {k o : ℕ} (hk : k ≤ 8) (hlow : 256 - 2 ^ (8 - k) ≤ o)
    (hhigh : o < 256 - 2 ^ (8 - k) / 2 ∨ k = 8) : classOf o = k := by
  have hle := classOf_le o
  obtain ⟨hlow', hhigh'⟩ := classOf_bounds o
  rcases lt_trichotomy (classOf o) k with hlt | heq | hgt
  · have hpow := two_pow_le_half hlt hk
    have hbelow := hhigh' (by omega)
    omega
  · exact heq
  · have hpow := two_pow_le_half hgt hle
    omega

/-- A number below `2 ^ width k` with the leading bits of class `k` has class `k`. -/
theorem classOf_header {k p : ℕ} (hk : k ≤ 8) (hp : p < 2 ^ width k) :
    classOf ((header k + p) / 256 ^ k % 256) = k := by
  apply classOf_eq hk
  · interval_cases k <;> simp [width, header] at hp ⊢ <;> omega
  · interval_cases k <;> simp [width, header] at hp ⊢ <;> omega

theorem header_add_lt {k p : ℕ} (hk : k ≤ 8) (hp : p < 2 ^ width k) :
    header k + p < 256 ^ (k + 1) := by
  interval_cases k <;> simp [width, header] at hp ⊢ <;> omega

theorem dvd_header (k : ℕ) : 2 ^ width k ∣ header k := by
  unfold header
  split_ifs <;> exact dvd_mul_left _ _

theorem bmod_of_fits {k : ℕ} {v : ℤ} (h : Fits k v) : v.bmod (2 ^ width k) = v := by
  have hw : 2 ^ width k = 2 * 2 ^ (width k - 1) := by
    rw [← pow_succ', Nat.sub_add_cancel]
    unfold width
    split_ifs <;> omega
  obtain ⟨h₁, h₂⟩ := h
  apply Int.bmod_eq_of_le_mul_two
  all_goals
    rw [hw]
    push_cast
    omega

/-- The octets of a number that fits its class hold that number. -/
theorem numberOf_pattern {k : ℕ} {v : ℤ} (hk : k ≤ 8) (hv : Fits k v) :
    numberOf k (beOctets (k + 1) (pattern k v)) = v := by
  have hlt : pattern k v < 256 ^ (k + 1) := header_add_lt hk (toNat_emod_lt v _)
  obtain ⟨c, hc⟩ := dvd_header k
  rw [numberOf, beValue_beOctets, Nat.mod_eq_of_lt hlt, pattern, hc]
  push_cast
  rw [toNat_emod_two_pow]
  have hcast : (2 : ℤ) ^ width k = ((2 ^ width k : ℕ) : ℤ) := by push_cast; rfl
  rw [hcast, Int.mul_add_bmod_self_left, Int.emod_bmod, bmod_of_fits hv]

/-- The pattern of the high word of a number of class `k`, with the leading bits. -/
def highPattern (k : ℕ) (hi : ℤ) : ℕ :=
  header k / 2 ^ 32 + (hi % 2 ^ (width k - 32)).toNat

/-- From class 4 on, the low word of a number takes the last four octets. -/
theorem encode_high {k low : ℕ} {v : ℤ} (hi : ℤ) (hk : sizeClass v = k + 4) (hlow : low < 2 ^ 32)
    (hv : v = hi * 2 ^ 32 + low) :
    encode v = beOctets (k + 1) (highPattern (k + 4) hi) ++ beOctets 4 low := by
  have hle : k ≤ 4 := by
    have := sizeClass_le v
    omega
  have hpattern : pattern (k + 4) v = highPattern (k + 4) hi * 256 ^ 4 + low := by
    unfold pattern highPattern
    interval_cases k <;> simp [width, header] <;> omega
  rw [encode, hk, hpattern, ← beOctets_add (k + 1) 4 _ low hlow]

end PrefixCode
