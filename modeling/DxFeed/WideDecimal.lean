import DxFeed.Library.DecimalText

/-!
# Wide decimals

The text of a 64-bit wide decimal, as in `WideDecimal.cpp`.

* `significandOf`, `rankOf`: how the conversions take a wide decimal apart;
* `toIntegerString`, `toFractionalOrScientific`, `toString`: its text;
* `toString_denotes`: the text denotes what these parts stand for, and is never cut;
* `decomposition_iff`: the parts are those that make up the wide decimal again if and only if it is
  not negative.

Longs are integers, and the one product that may overflow wraps.  Texts are lists of characters.
-/

namespace DxFeed.WideDecimal

open DecimalText

/-! ### Constants -/

/-- `Consts::BIAS`. -/
def bias : ℤ := 128

/-- `Consts::EXACT_LONG_POWERS`: the greatest power of ten that fits into a long. -/
def exactLongPowers : ℤ := 18

/-- `Consts::EXPONENT_CHAR`. -/
def exponentChar : Char := 'E'

/-- `Consts::MAX_TRAILING_ZEROES`. -/
def maxTrailingZeroes : ℤ := 6

/-- `Consts::MAX_LEADING_ZEROES`. -/
def maxLeadingZeroes : ℤ := 6

/-- `Consts::maxStringLength`. -/
def maxStringLength : ℕ :=
  18 + max 6 (max (2 + maxLeadingZeroes.toNat) maxTrailingZeroes.toNat)

/-- `Consts::longPowers`. -/
def longPowers (i : ℤ) : ℤ := 10 ^ i.toNat

/-- `Consts::scientificModulo`. -/
def scientificModulo : ℤ := longPowers (maxTrailingZeroes + 1)

/-- `Consts::zeroChars`: a zero, a point, and 128 zeroes. -/
def zeroChars : List Char := '0' :: '.' :: List.replicate 128 '0'

/-- `Consts::nfString`. -/
def nfString : List (List Char) :=
  ["NaN".toList, "Infinity".toList, "NaN".toList, "-Infinity".toList]

/-- `signum`. -/
def signum (x : ℤ) : ℤ := (if 0 < x then 1 else 0) - if x < 0 then 1 else 0

/-! ### Texts -/

/-- `wide / 256`: the quotient is rounded toward zero. -/
def significandOf (wide : Int64) : ℤ := (wide / 256).toInt

/-- `static_cast<dxf_int_t>(wide) & 0xFF`. -/
def rankOf (wide : Int64) : ℤ := (wide.toInt32 &&& 0xFF).toInt

/-- A product of longs, which wraps: this is what the division behind it tests for. -/
def mulLong (a b : ℤ) : ℤ := (a * b).bmod (2 ^ 64)

/-- `toIntegerString`: the number if it is an integer that is written without an exponent, and zero
otherwise. -/
def toIntegerString (significand rank : ℤ) : ℤ :=
  if rank > bias then
    -- fractional number with possible zero fraction and more trailing zeroes
    if rank - bias ≤ exactLongPowers then
      let pow10 := longPowers (rank - bias)
      let result := significand.tdiv pow10
      if mulLong result pow10 = significand ∧ result.tmod scientificModulo ≠ 0 then result else 0
    else 0
  else if bias - rank ≤ exactLongPowers ∧ bias - rank ≤ maxTrailingZeroes then
    -- integer number with possible trailing zeroes
    let pow10 := longPowers (bias - rank)
    let result := mulLong significand pow10
    if result.tdiv pow10 = significand ∧ result.tmod scientificModulo ≠ 0 then result else 0
  else 0

/-- The loop that removes trailing zeroes, in at most `rounds` rounds. -/
def removeTrailingZeroes : ℕ → ℤ → ℤ → ℤ × ℤ
  | 0, significand, rank => (significand, rank)
  | rounds + 1, significand, rank =>
      if significand.tmod 10 = 0 then
        removeTrailingZeroes rounds (significand.tdiv 10) (rank - 1)
      else (significand, rank)

/-- `insert` of a string. -/
def insertText (result : List Char) (position : ℕ) (text : List Char) : List Char :=
  result.take position ++ (text ++ result.drop position)

/-- The end of `toFractionalOrScientific`: scientific notation. -/
def toScientific (result : List Char) (firstDigit : ℕ) (rank : ℤ) : List Char :=
  let digits : ℤ := result.length - firstDigit
  let result := if digits ≠ 1 then insertText result (firstDigit + 1) ['.'] else result
  result ++ exponentChar :: intText (bias - rank + digits - 1)

/-- `toFractionalOrScientific` behind its loop. -/
def writeDigits (significand rank : ℤ) : List Char :=
  let firstDigit : ℕ := if significand < 0 then 1 else 0
  let result := intText significand
  if rank > bias then
    -- fractional number
    let dotPosition : ℤ := result.length - (rank - bias)
    if dotPosition > firstDigit then insertText result dotPosition.toNat ['.']
    else if firstDigit - dotPosition ≤ maxLeadingZeroes then
      insertText result firstDigit (zeroChars.take (2 + (firstDigit - dotPosition)).toNat)
    else toScientific result firstDigit rank
  else if bias - rank ≤ maxTrailingZeroes then
    -- integer number
    result ++ (zeroChars.drop 2).take (bias - rank).toNat
  else toScientific result firstDigit rank

/-- `toFractionalOrScientific`. -/
def toFractionalOrScientific (significand rank : ℤ) : List Char :=
  let stripped := removeTrailingZeroes exactLongPowers.toNat significand rank
  writeDigits stripped.1 stripped.2

/-- `toString`. -/
def toString (wide : Int64) : List Char :=
  let significand := significandOf wide
  let rank := rankOf wide
  if rank = 0 then nfString.getD (signum significand % 4).toNat []
  else if significand = 0 then ['0']
  else
    let integerString := toIntegerString significand rank
    if integerString ≠ 0 then intText integerString
    else (toFractionalOrScientific significand rank).take maxStringLength

/-- The text of a wide decimal is longer than `toString` returns. -/
def IsTruncated (wide : Int64) : Prop :=
  rankOf wide ≠ 0 ∧ significandOf wide ≠ 0 ∧
    toIntegerString (significandOf wide) (rankOf wide) = 0 ∧
    maxStringLength < (toFractionalOrScientific (significandOf wide) (rankOf wide)).length

/-! ### The parts -/

theorem significandOf_eq (wide : Int64) : significandOf wide = wide.toInt.tdiv 256 := by
  rw [significandOf, Int64.toInt_div_of_ne_right _ _ (by decide)]
  rfl

theorem rankOf_eq (wide : Int64) : rankOf wide = wide.toInt % 256 := by
  have hlow : (wide.toInt32 &&& 0xFF).toBitVec.toNat = wide.toBitVec.toNat % 256 := by
    have hword : wide.toInt32.toBitVec.toNat = wide.toBitVec.toNat % 2 ^ 32 := by
      show (wide.toBitVec.signExtend 32).toNat = _
      rw [BitVec.signExtend_eq_setWidth_of_le _ (by decide), BitVec.toNat_setWidth]
    rw [Int32.toBitVec_and, BitVec.toNat_and, hword]
    show (wide.toBitVec.toNat % 2 ^ 32) &&& (2 ^ 8 - 1) = _
    rw [Nat.and_two_pow_sub_one_eq_mod]
    omega
  have hrank : rankOf wide = (wide.toInt32 &&& 0xFF).toBitVec.toInt := rfl
  have hwide : wide.toInt = wide.toBitVec.toInt := rfl
  have hlt := wide.toBitVec.isLt
  rw [hrank, hwide, BitVec.toInt_eq_toNat_cond, BitVec.toInt_eq_toNat_cond, hlow]
  split_ifs <;> omega

/-- The significand is the quotient toward zero, one more than the quotient of a negative wide
decimal. -/
theorem significandOf_eq_iff {wide : Int64} {s r : ℤ} (hr : 1 ≤ r ∧ r ≤ 255)
    (hwide : s * 256 + r = wide.toInt) : significandOf wide = s ↔ 0 ≤ wide.toInt := by
  have hsign : Int.sign 256 = 1 := rfl
  rw [significandOf_eq, Int.tdiv_eq_ediv, hsign]
  split_ifs <;> omega

theorem rankOf_eq_of {wide : Int64} {s r : ℤ} (hr : 1 ≤ r ∧ r ≤ 255)
    (hwide : s * 256 + r = wide.toInt) : rankOf wide = r := by
  rw [rankOf_eq]
  omega

theorem abs_significandOf_le (wide : Int64) : |significandOf wide| ≤ 2 ^ 55 := by
  have hlow := wide.le_toInt
  have hhigh := wide.toInt_lt
  have hsign : Int.sign 256 = 1 := rfl
  rw [significandOf_eq, Int.tdiv_eq_ediv, hsign, abs_le]
  split_ifs <;> omega

/-! ### Integers -/

/-- A number that wraps to a near one does not wrap. -/
theorem eq_of_bmod_near {x y : ℤ} (h : x.bmod (2 ^ 64) = y) (hnear : |x - y| < 10 ^ 18 + 1) :
    x = y := by
  rw [Int.bmod_eq_self_sub_bdiv_mul] at h
  rw [abs_lt] at hnear
  push_cast at h
  omega

theorem longPowers_pos (i : ℤ) : 0 < longPowers i := pow_pos (by decide) _

theorem longPowers_le {i : ℤ} (h : i ≤ exactLongPowers) : longPowers i ≤ 10 ^ 18 :=
  pow_le_pow_right₀ (by decide) (by unfold exactLongPowers at h; omega)

theorem longPowers_zpow {i : ℤ} (h : 0 ≤ i) : ((longPowers i : ℤ) : ℚ) = 10 ^ i := by
  obtain ⟨n, rfl⟩ := Int.eq_ofNat_of_zero_le h
  rw [longPowers, Int.toNat_natCast, zpow_natCast]
  push_cast
  rfl

/-- The remainder of a division by a power of ten is small. -/
theorem abs_tmod_longPowers_lt (a : ℤ) {i : ℤ} (h : i ≤ exactLongPowers) :
    |a.tmod (longPowers i)| < 10 ^ 18 + 1 := by
  have hlow := Int.lt_tmod_of_pos a (longPowers_pos i)
  have hhigh := Int.tmod_lt_of_pos a (longPowers_pos i)
  have hle := longPowers_le h
  rw [abs_lt]
  omega

/-- `toIntegerString` answers with the number itself, or with zero. -/
theorem toIntegerString_eq {significand rank : ℤ} (hne : toIntegerString significand rank ≠ 0) :
    (toIntegerString significand rank : ℚ) = significand * 10 ^ (bias - rank) := by
  unfold toIntegerString at hne ⊢
  dsimp only at hne ⊢
  by_cases hrank : rank > bias
  · rw [if_pos hrank] at hne ⊢
    by_cases hexact : rank - bias ≤ exactLongPowers
    · rw [if_pos hexact] at hne ⊢
      split_ifs at hne ⊢ with hresult
      · have hdiv := Int.mul_tdiv_add_tmod significand (longPowers (rank - bias))
        have hsmall := abs_tmod_longPowers_lt significand hexact
        have heq : significand.tdiv (longPowers (rank - bias)) * longPowers (rank - bias) =
            significand := by
          refine eq_of_bmod_near hresult.1 ?_
          rw [show significand.tdiv (longPowers (rank - bias)) * longPowers (rank - bias) -
            significand = -significand.tmod (longPowers (rank - bias)) by linarith, abs_neg]
          exact hsmall
        have hpow : (longPowers (rank - bias) : ℚ) = 10 ^ (rank - bias) :=
          longPowers_zpow (by omega)
        rw [← neg_sub rank bias, zpow_neg, ← hpow, eq_mul_inv_iff_mul_eq₀]
        · exact_mod_cast heq
        · exact_mod_cast (longPowers_pos _).ne'
      · exact absurd rfl hne
    · rw [if_neg hexact] at hne
      exact absurd rfl hne
  · rw [if_neg hrank] at hne ⊢
    by_cases hexact : bias - rank ≤ exactLongPowers ∧ bias - rank ≤ maxTrailingZeroes
    · rw [if_pos hexact] at hne ⊢
      split_ifs at hne ⊢ with hresult
      · -- a product that wrapped would not be divided back
        have hdiv := Int.mul_tdiv_add_tmod (mulLong significand (longPowers (bias - rank)))
          (longPowers (bias - rank))
        have hsmall := abs_tmod_longPowers_lt (mulLong significand (longPowers (bias - rank)))
          hexact.1
        rw [hresult.1] at hdiv
        have heq : significand * longPowers (bias - rank) =
            mulLong significand (longPowers (bias - rank)) := by
          refine eq_of_bmod_near rfl ?_
          rw [show significand * longPowers (bias - rank) -
            mulLong significand (longPowers (bias - rank)) =
              -(mulLong significand (longPowers (bias - rank))).tmod (longPowers (bias - rank)) by
            linarith, abs_neg]
          exact hsmall
        rw [← heq, ← longPowers_zpow (by omega), Int.cast_mul]
      · exact absurd rfl hne
    · rw [if_neg hexact] at hne
      exact absurd rfl hne

/-! ### Digits -/

/-- What the loop leaves: the same number. -/
structure Strips (significand rank : ℤ) (rounds : ℕ) (stripped : ℤ × ℤ) : Prop where
  ne_zero : stripped.1 ≠ 0
  value : (stripped.1 : ℚ) * 10 ^ (bias - stripped.2) = significand * 10 ^ (bias - rank)
  abs_le : |stripped.1| ≤ |significand|
  rank_le : stripped.2 ≤ rank
  le_rank : rank - rounds ≤ stripped.2

theorem strips_removeTrailingZeroes {significand : ℤ} (hne : significand ≠ 0) (rank : ℤ)
    (rounds : ℕ) :
    Strips significand rank rounds (removeTrailingZeroes rounds significand rank) := by
  induction rounds generalizing significand rank with
  | zero =>
      refine ⟨hne, rfl, le_rfl, le_rfl, ?_⟩
      simp [removeTrailingZeroes]
  | succ rounds ih =>
      rw [removeTrailingZeroes]
      by_cases hzero : significand.tmod 10 = 0
      · rw [if_pos hzero]
        have hdiv := Int.mul_tdiv_add_tmod significand 10
        rw [hzero, add_zero] at hdiv
        have hne' : significand.tdiv 10 ≠ 0 := by
          intro h
          rw [h, mul_zero] at hdiv
          exact hne hdiv.symm
        have hnonneg := abs_nonneg (significand.tdiv 10)
        have habs : |significand| = 10 * |significand.tdiv 10| := by
          conv_lhs => rw [← hdiv, abs_mul]
          rfl
        obtain ⟨hne'', hvalue, hle, hrank, hrank'⟩ := ih hne' (rank - 1)
        refine ⟨hne'', hvalue.trans ?_, by omega, by omega, by push_cast; omega⟩
        have hq : (significand : ℚ) = significand.tdiv 10 * 10 := by
          exact_mod_cast (mul_comm _ _).trans hdiv |>.symm
        rw [hq, mul_assoc, ← zpow_one_add₀ (by norm_num), show bias - (rank - 1) =
          1 + (bias - rank) by ring]
      · rw [if_neg hzero]
        exact ⟨hne, rfl, le_rfl, le_rfl, by push_cast; omega⟩

theorem zeroChars_take {n : ℕ} (h : n ≤ 128) :
    zeroChars.take (2 + n) = '0' :: '.' :: List.replicate n '0' := by
  rw [zeroChars, Nat.add_comm, List.take_succ_cons, List.take_succ_cons, List.take_replicate,
    min_eq_left h]

theorem zeroChars_drop {n : ℕ} (h : n ≤ 128) :
    (zeroChars.drop 2).take n = List.replicate n '0' := by
  show (List.replicate 128 '0').take n = _
  rw [List.take_replicate, min_eq_left h]

/-- An insertion behind the sign. -/
theorem insertText_sign (negative : Bool) (digits text : List Char) (k : ℕ) :
    insertText (sign negative ++ digits) ((sign negative).length + k) text =
      sign negative ++ (digits.take k ++ (text ++ digits.drop k)) := by
  rw [insertText, List.take_length_add_append, List.drop_length_add_append, List.append_assoc]

/-- Scientific notation puts a point behind the first digit, if there are others. -/
theorem toScientific_sign (negative : Bool) (c : Char) (digits : List Char) (rank : ℤ) :
    toScientific (sign negative ++ c :: digits) (sign negative).length rank =
      sign negative ++
        ((c :: pointText digits) ++ 'E' :: intText (bias - rank + digits.length)) := by
  have hdigits : (((sign negative ++ c :: digits).length : ℕ) : ℤ) - (sign negative).length =
      digits.length + 1 := by
    rw [List.length_append, List.length_cons]
    push_cast
    ring
  unfold toScientific
  dsimp only
  rw [hdigits, show bias - rank + ((digits.length : ℤ) + 1) - 1 = bias - rank + digits.length by
    ring]
  by_cases hnil : digits = []
  · subst hnil
    simp [pointText, exponentChar]
  · have hlength : digits.length ≠ 0 := by simpa using hnil
    rw [if_pos (by omega), insertText_sign]
    simp [pointText, hnil, exponentChar]

theorem length_sign (negative : Bool) : (sign negative).length ≤ 1 := by
  cases negative <;> decide

theorem length_intText {n : ℤ} {k : ℕ} (hk : 0 < k) (h : |n| < 10 ^ k) :
    (intText n).length ≤ k + 1 := by
  have hdigits : (Nat.toDigits 10 n.natAbs).length ≤ k := by
    rw [Nat.length_toDigits_le_iff (by decide) hk]
    zify
    exact h
  have hsign := length_sign (n < 0)
  rw [intText, List.length_append]
  omega

/-- Digits with their sign, written with a point, with zeroes or with an exponent. -/
def layOut (negative : Bool) (digits : List Char) (rank : ℤ) : List Char :=
  if rank > bias then
    if digits.length > rank - bias then
      sign negative ++ (digits.take (digits.length - (rank - bias).toNat) ++
        '.' :: digits.drop (digits.length - (rank - bias).toNat))
    else if rank - bias - digits.length ≤ maxLeadingZeroes then
      sign negative ++
        ('0' :: '.' :: (List.replicate ((rank - bias).toNat - digits.length) '0' ++ digits))
    else toScientific (sign negative ++ digits) (sign negative).length rank
  else if bias - rank ≤ maxTrailingZeroes then
    sign negative ++ (digits ++ List.replicate (bias - rank).toNat '0')
  else toScientific (sign negative ++ digits) (sign negative).length rank

/-- The positions in the text are positions in its digits. -/
theorem writeDigits_eq (significand rank : ℤ) :
    writeDigits significand rank =
      layOut (significand < 0) (Nat.toDigits 10 significand.natAbs) rank := by
  have hfirst : (if significand < 0 then 1 else 0 : ℕ) = (sign (significand < 0)).length := by
    unfold sign
    by_cases hneg : significand < 0
    · simp [hneg]
    · simp [hneg]
  unfold writeDigits layOut
  rw [hfirst, intText]
  generalize Nat.toDigits 10 significand.natAbs = digits
  generalize decide (significand < 0) = negative
  dsimp only
  rw [List.length_append]
  push_cast
  by_cases hrank : rank > bias
  · rw [if_pos hrank, if_pos hrank]
    by_cases hpoint : (digits.length : ℤ) > rank - bias
    · have hposition : ((sign negative).length + (digits.length : ℤ) - (rank - bias)).toNat =
          (sign negative).length + (digits.length - (rank - bias).toNat) := by omega
      rw [if_pos (by omega), if_pos hpoint, hposition, insertText_sign]
      rfl
    · rw [if_neg (by omega), if_neg hpoint]
      by_cases hleading : rank - bias - digits.length ≤ maxLeadingZeroes
      · have hzeroes : (2 + ((sign negative).length -
            ((sign negative).length + (digits.length : ℤ) - (rank - bias)))).toNat =
              2 + ((rank - bias).toNat - digits.length) := by omega
        have hinsert := insertText_sign negative digits
          ('0' :: '.' :: List.replicate ((rank - bias).toNat - digits.length) '0') 0
        rw [if_pos (by omega), if_pos hleading, hzeroes, zeroChars_take]
        · exact hinsert
        · unfold maxLeadingZeroes at hleading
          omega
      · rw [if_neg (by omega), if_neg hleading]
  · rw [if_neg hrank, if_neg hrank]
    by_cases htrailing : bias - rank ≤ maxTrailingZeroes
    · rw [if_pos htrailing, if_pos htrailing, List.append_assoc, zeroChars_drop]
      unfold maxTrailingZeroes at htrailing
      omega
    · rw [if_neg htrailing, if_neg htrailing]

/-- The text of digits denotes the number. -/
theorem denotes_layOut (negative : Bool) {digits : List Char} (hne : digits ≠ [])
    (hdigits : ∀ c ∈ digits, c.isDigit) (rank : ℤ) :
    Denotes (layOut negative digits rank)
      (signed negative (natValue digits * 10 ^ (bias - rank))) := by
  have hpos : 0 < digits.length := List.length_pos_iff.mpr hne
  have hscientific : Denotes (toScientific (sign negative ++ digits) (sign negative).length rank)
      (signed negative (natValue digits * 10 ^ (bias - rank))) := by
    cases digits with
    | nil => exact absurd rfl hne
    | cons c digits =>
        rw [toScientific_sign]
        have h := denotes_scientific negative hdigits (bias - rank + digits.length)
        rwa [add_sub_cancel_right] at h
  unfold layOut
  split_ifs with hrank hpoint hleading htrailing
  · have h := denotes_point negative hdigits (k := digits.length - (rank - bias).toNat) (by omega)
      (by omega)
    rwa [show ((digits.length - (rank - bias).toNat : ℕ) : ℤ) - digits.length = bias - rank by
      omega] at h
  · have h := denotes_leading negative hne hdigits ((rank - bias).toNat - digits.length)
    rwa [show -((((rank - bias).toNat - digits.length : ℕ) : ℤ) + digits.length) = bias - rank by
      omega] at h
  · exact hscientific
  · have h := denotes_whole negative hne hdigits (bias - rank).toNat
    rwa [Int.toNat_of_nonneg (by omega)] at h
  · exact hscientific

/-- The text of at most 17 digits is never cut. -/
theorem length_layOut (negative : Bool) {digits : List Char} (hne : digits ≠ [])
    (hlength : digits.length ≤ 17) {rank : ℤ} (hrank : -17 ≤ rank ∧ rank ≤ 255) :
    (layOut negative digits rank).length ≤ maxStringLength := by
  have hsign := length_sign negative
  have hmax : maxStringLength = 26 := by decide
  have hscientific : (toScientific (sign negative ++ digits) (sign negative).length rank).length ≤
      26 := by
    cases digits with
    | nil => exact absurd rfl hne
    | cons c digits =>
        have hpoint : (pointText digits).length ≤ digits.length + 1 := by
          unfold pointText
          split_ifs <;> simp
        have hexponent : (intText (bias - rank + digits.length)).length ≤ 3 + 1 := by
          refine length_intText (by decide) ?_
          rw [List.length_cons] at hlength
          unfold bias
          rw [abs_lt]
          omega
        rw [toScientific_sign]
        simp only [List.length_append, List.length_cons] at hlength ⊢
        omega
  rw [hmax]
  unfold layOut
  split_ifs with h₁ h₂ h₃ h₄
  · simp only [List.length_append, List.length_cons, List.length_take, List.length_drop]
    omega
  · unfold maxLeadingZeroes at h₃
    simp only [List.length_append, List.length_cons, List.length_replicate]
    omega
  · exact hscientific
  · unfold maxTrailingZeroes at h₄
    simp only [List.length_append, List.length_replicate]
    omega
  · exact hscientific

/-- The text denotes the number of the parts, and it is never cut. -/
theorem toFractionalOrScientific_denotes {significand rank : ℤ} (hne : significand ≠ 0)
    (hbound : |significand| ≤ 2 ^ 55) (hrank : 1 ≤ rank ∧ rank ≤ 255) :
    Denotes (toFractionalOrScientific significand rank) (significand * 10 ^ (bias - rank)) ∧
      (toFractionalOrScientific significand rank).length ≤ maxStringLength := by
  obtain ⟨-, hvalue, habs, hle, hge⟩ :=
    strips_removeTrailingZeroes hne rank exactLongPowers.toNat
  unfold toFractionalOrScientific
  dsimp only
  generalize removeTrailingZeroes exactLongPowers.toNat significand rank = stripped at *
  have hlength : (Nat.toDigits 10 stripped.1.natAbs).length ≤ 17 := by
    rw [Nat.length_toDigits_le_iff (by decide) (by decide)]
    zify
    exact (habs.trans hbound).trans_lt (by norm_num)
  have hdenotes := denotes_layOut (stripped.1 < 0) Nat.toDigits_ne_nil
    (isDigit_of_mem_toDigits (n := stripped.1.natAbs)) stripped.2
  rw [natValue_toDigits, signed_natAbs, hvalue] at hdenotes
  rw [writeDigits_eq]
  refine ⟨hdenotes, length_layOut _ Nat.toDigits_ne_nil hlength ⟨?_, by omega⟩⟩
  have hrounds : (exactLongPowers.toNat : ℤ) = 18 := rfl
  omega

/-! ### Wide decimals -/

/-- The text denotes what the parts of the wide decimal stand for. -/
theorem toString_denotes {wide : Int64} (hrank : 1 ≤ rankOf wide ∧ rankOf wide ≤ 255) :
    Denotes (toString wide) (significandOf wide * 10 ^ (bias - rankOf wide)) := by
  unfold toString
  dsimp only
  rw [if_neg (by omega)]
  by_cases hzero : significandOf wide = 0
  · rw [if_pos hzero, hzero, Int.cast_zero, zero_mul]
    exact denotes_intText 0
  · rw [if_neg hzero]
    obtain ⟨hdenotes, hlength⟩ :=
      toFractionalOrScientific_denotes hzero (abs_significandOf_le wide) hrank
    split_ifs with hinteger
    · rw [← toIntegerString_eq hinteger]
      exact denotes_intText _
    · rwa [List.take_of_length_le hlength]

theorem not_isTruncated {wide : Int64} (hrank : 1 ≤ rankOf wide ∧ rankOf wide ≤ 255) :
    ¬ IsTruncated wide := by
  rintro ⟨-, hne, -, hlong⟩
  obtain ⟨-, hlength⟩ := toFractionalOrScientific_denotes hne (abs_significandOf_le wide) hrank
  omega

/-- For a wide decimal whose low byte `r` is not zero, with `s * 256 + r`: the conversions take
these parts, and the text denotes `s * 10 ^ (128 - r)` and is not cut, if and only if the wide
decimal is not negative.  The text alone does so in the same cases. -/
theorem toString_denotes_iff (wide : Int64) (s r : ℤ) (hr : 1 ≤ r ∧ r ≤ 255)
    (hwide : s * 256 + r = wide.toInt) :
    ((significandOf wide = s ∧ rankOf wide = r) ∧
        Denotes (toString wide) (s * 10 ^ (128 - r)) ∧ ¬ IsTruncated wide ↔ 0 ≤ wide.toInt) ∧
      (Denotes (toString wide) (s * 10 ^ (128 - r)) ↔ 0 ≤ wide.toInt) := by
  have hrank := rankOf_eq_of hr hwide
  have hsignificand := significandOf_eq_iff hr hwide
  have hcut : ¬ IsTruncated wide := not_isTruncated (by rwa [hrank])
  have hdenotes := toString_denotes (by rwa [hrank] : 1 ≤ rankOf wide ∧ rankOf wide ≤ 255)
  rw [hrank] at hdenotes
  have hpow : (10 : ℚ) ^ (bias - r) ≠ 0 := zpow_ne_zero _ (by norm_num)
  have htext : Denotes (toString wide) (s * 10 ^ (128 - r)) ↔ 0 ≤ wide.toInt := by
    rw [← hsignificand]
    constructor
    · intro h
      exact_mod_cast mul_right_cancel₀ hpow (hdenotes.unique h)
    · intro h
      rwa [h] at hdenotes
  refine ⟨?_, htext⟩
  rw [htext, hsignificand]
  exact ⟨fun h => h.1.1, fun h => ⟨⟨h, hrank⟩, h, hcut⟩⟩

/-- The wide decimal 1.5. -/
theorem toString_denotes_iff_fraction :
    Denotes (toString (15 * 256 + 129)) ((15 : ℤ) * 10 ^ (128 - 129 : ℤ)) :=
  (toString_denotes_iff (15 * 256 + 129) 15 129 (by decide) (by decide)).2.mpr (by decide)

/-- The wide decimal -1.5 has the text of -1.4. -/
theorem not_denotes_negative :
    toString (-15 * 256 + 129) = ['-', '1', '.', '4'] ∧
      ¬ Denotes (toString (-15 * 256 + 129)) ((-15 : ℤ) * 10 ^ (128 - 129 : ℤ)) := by
  refine ⟨by decide +kernel, fun h => ?_⟩
  have hsignificand : significandOf (-15 * 256 + 129) = -14 := by decide
  have hrank : rankOf (-15 * 256 + 129) = 129 := by decide
  have hdenotes : Denotes (toString (-15 * 256 + 129)) (significandOf (-15 * 256 + 129) *
      10 ^ (bias - rankOf (-15 * 256 + 129))) := toString_denotes (by decide)
  rw [hsignificand, hrank] at hdenotes
  have heq := mul_right_cancel₀ (zpow_ne_zero _ (by norm_num)) (hdenotes.unique h)
  norm_num at heq

end DxFeed.WideDecimal
