import DxFeed.Library.SignedArith

/-!
# The time functions of `DXAlgorithms.c`

A time in milliseconds is split into seconds and the milliseconds of a second.

* `getSecondsFromTime`: `dx_get_seconds_from_time`;
* `getMillisFromTime`: `dx_get_millis_from_time`;
* `timeSplit`: the parts make up the time, as long as the seconds fit in 32 bits.
-/

namespace DxFeed.TimeFunctions

open SignedArith

/-- `DX_TIME_SECOND`. -/
def timeSecond : Int64 := 1000

/-- `INT_MAX`. -/
def intMax : Int64 := 2147483647

/-- `INT_MIN`. -/
def intMin : Int64 := -2147483648

/-- `dx_get_seconds_from_time`, whose sums must not overflow. -/
def getSecondsFromTime (millis : Int64) : Option Int32 :=
  if millis ≥ 0 then
    let seconds := millis / timeSecond
    some (if seconds < intMax then seconds else intMax).toInt32
  else do
    let next ← signedLong (millis.toInt + 1)
    let seconds ← signedLong ((next / timeSecond).toInt - 1)
    some (if seconds > intMin then seconds else intMin).toInt32

/-- `dx_get_millis_from_time`. -/
def getMillisFromTime (millis : Int64) : Option Int32 :=
  let r := (millis % timeSecond).toInt32
  if r ≥ 0 then some r else signedInt (r.toInt + timeSecond.toInt32.toInt)

variable {a : Int64}

/-- The quotient of the source is rounded towards zero. -/
theorem tdiv_of_nonpos {x : ℤ} (h : x ≤ 0) : x.tdiv 1000 = -(-x / 1000) := by
  have hneg := Int.neg_tdiv (-x) 1000
  rw [neg_neg] at hneg
  rw [hneg, Int.tdiv_eq_ediv_of_nonneg (by omega)]

theorem toInt_div_timeSecond (a : Int64) : (a / timeSecond).toInt = a.toInt.tdiv 1000 := by
  have hmin := a.le_toInt
  have hmax := a.toInt_lt
  rw [Int64.toInt_div]
  show (a.toInt.tdiv 1000).bmod (2 ^ 64) = _
  rcases le_total 0 a.toInt with hsign | hsign
  · rw [Int.tdiv_eq_ediv_of_nonneg hsign]
    apply Int.bmod_eq_of_le <;> omega
  · rw [tdiv_of_nonpos hsign]
    apply Int.bmod_eq_of_le <;> omega

theorem toInt_mod_timeSecond (a : Int64) : (a % timeSecond).toInt = a.toInt.tmod 1000 :=
  Int64.toInt_mod a timeSecond

/-- A number of 64 bits that fits in 32 bits keeps its value. -/
theorem toInt_toInt32_of_fits (h : FitsInt a.toInt) : a.toInt32.toInt = a.toInt := by
  obtain ⟨hmin, hmax⟩ := h
  rw [Int64.toInt_toInt32]
  apply Int.bmod_eq_of_le <;> omega

/-- `MIN(a, INT_MAX)` as a number of 32 bits. -/
theorem toInt_min_intMax (h : 0 ≤ a.toInt) :
    (if a < intMax then a else intMax).toInt32.toInt = min a.toInt (2 ^ 31 - 1) := by
  have hlt : a < intMax ↔ a.toInt < 2147483647 := Int64.lt_iff_toInt_lt
  split_ifs with hsmall
  · rw [hlt] at hsmall
    rw [toInt_toInt32_of_fits ⟨by omega, by omega⟩]
    omega
  · rw [hlt] at hsmall
    show (2147483647 : ℤ) = _
    omega

/-- `MAX(a, INT_MIN)` as a number of 32 bits. -/
theorem toInt_max_intMin (h : a.toInt < 0) :
    (if a > intMin then a else intMin).toInt32.toInt = max a.toInt (-2 ^ 31) := by
  have hlt : a > intMin ↔ -2147483648 < a.toInt := Int64.lt_iff_toInt_lt
  split_ifs with hlarge
  · rw [hlt] at hlarge
    rw [toInt_toInt32_of_fits ⟨by omega, by omega⟩]
    omega
  · rw [hlt] at hlarge
    show (-2147483648 : ℤ) = _
    omega

/-- The seconds are the floor of the quotient, clamped to the numbers of 32 bits. -/
theorem getSecondsFromTime_eq (millis : Int64) :
    ∃ seconds, getSecondsFromTime millis = some seconds ∧
      seconds.toInt = max (-2 ^ 31) (min (millis.toInt / 1000) (2 ^ 31 - 1)) := by
  have hmin := millis.le_toInt
  have hmax := millis.toInt_lt
  have hsign : millis ≥ 0 ↔ 0 ≤ millis.toInt := Int64.le_iff_toInt_le
  unfold getSecondsFromTime
  rcases le_or_gt 0 millis.toInt with hnonneg | hneg
  · have hquot := toInt_div_timeSecond millis
    rw [Int.tdiv_eq_ediv_of_nonneg hnonneg] at hquot
    rw [if_pos (hsign.mpr hnonneg)]
    refine ⟨_, rfl, ?_⟩
    rw [toInt_min_intMax (by omega), hquot]
    omega
  · -- neither the sum nor the difference leaves the numbers of 64 bits
    obtain ⟨next, hnext, hnext'⟩ := exists_signedLong (x := millis.toInt + 1) (by
      constructor <;> omega)
    have hquot := toInt_div_timeSecond next
    rw [hnext', tdiv_of_nonpos (by omega)] at hquot
    obtain ⟨seconds, hseconds, hseconds'⟩ :=
      exists_signedLong (x := (next / timeSecond).toInt - 1) (by constructor <;> omega)
    rw [if_neg (hsign.not.mpr (not_le.mpr hneg)), hnext, Option.bind_eq_bind, Option.bind_some,
      hseconds, Option.bind_some]
    refine ⟨_, rfl, ?_⟩
    rw [toInt_max_intMin (by omega), hseconds', hquot]
    omega

/-- The milliseconds are the remainder of the floor. -/
theorem getMillisFromTime_eq (millis : Int64) :
    ∃ r, getMillisFromTime millis = some r ∧ r.toInt = millis.toInt % 1000 := by
  have hmod := toInt_mod_timeSecond millis
  rw [Int.tmod_def] at hmod
  unfold getMillisFromTime
  have hrange : (millis % timeSecond).toInt = millis.toInt % 1000 ∨
      (millis % timeSecond).toInt = millis.toInt % 1000 - 1000 ∧
        0 < millis.toInt % 1000 := by
    rcases le_total 0 millis.toInt with hsign | hsign
    · rw [Int.tdiv_eq_ediv_of_nonneg hsign] at hmod
      omega
    · rw [tdiv_of_nonpos hsign] at hmod
      omega
  have hword : (millis % timeSecond).toInt32.toInt = (millis % timeSecond).toInt :=
    toInt_toInt32_of_fits (by constructor <;> omega)
  have hsign : (millis % timeSecond).toInt32 ≥ 0 ↔ 0 ≤ (millis % timeSecond).toInt := by
    rw [← hword]
    exact Int32.le_iff_toInt_le
  rcases hrange with hnonneg | ⟨hneg, hpos⟩
  · exact ⟨_, if_pos (hsign.mpr (by omega)), by rw [hword, hnonneg]⟩
  · obtain ⟨r, hr, hr'⟩ := exists_signedInt
      (x := (millis % timeSecond).toInt32.toInt + timeSecond.toInt32.toInt) (by
        rw [hword, hneg]
        show FitsInt (_ + 1000)
        constructor <;> omega)
    refine ⟨r, (if_neg (hsign.not.mpr (by omega))).trans hr, ?_⟩
    rw [hr', hword, hneg]
    exact Int.sub_add_cancel _ _

/-- The parts of a time make up the time, if the seconds fit in 32 bits; otherwise the seconds are
the largest, or the smallest, number of 32 bits. -/
theorem timeSplit (millis : Int64) :
    ∃ seconds r, getSecondsFromTime millis = some seconds ∧ getMillisFromTime millis = some r ∧
      0 ≤ r.toInt ∧ r.toInt ≤ 999 ∧
      (FitsInt (millis.toInt / 1000) → seconds.toInt * 1000 + r.toInt = millis.toInt) ∧
      (2 ^ 31 ≤ millis.toInt / 1000 → seconds = Int32.maxValue) ∧
      (millis.toInt / 1000 < -2 ^ 31 → seconds = Int32.minValue) := by
  obtain ⟨seconds, hseconds, hseconds'⟩ := getSecondsFromTime_eq millis
  obtain ⟨r, hr, hr'⟩ := getMillisFromTime_eq millis
  refine ⟨seconds, r, hseconds, hr, by omega, by omega, ?_, ?_, ?_⟩
  · rintro ⟨hmin, hmax⟩
    omega
  · intro hlarge
    apply Int32.toInt_inj.mp
    show seconds.toInt = 2147483647
    omega
  · intro hsmall
    apply Int32.toInt_inj.mp
    show seconds.toInt = -2147483648
    omega

end DxFeed.TimeFunctions
