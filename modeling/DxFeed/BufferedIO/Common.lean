import DxFeed.Library.Call
import DxFeed.Library.FixedWidth
import DxFeed.Library.PrefixCode

/-!
# `BufferedIOCommon.c` and the state of the buffered streams

* `ErrorCode`: the error codes the modelled calls set;
* `isCapacityEnough`, the capacity test shared by both streams, in `int` arithmetic;
* `getCompactSize` (`dx_get_compact_size`) and its size class.

A buffer with a separate length is the list of its bytes.
-/

namespace DxFeed

inductive ErrorCode
  | invalidFuncParamInternal
  | bufferOverflow
  | bufferNotInitialized
  | indexOutOfBounds
  | bufferUnderflow
  | descrRecordFieldInfoCorrupted
  | recordInfoCorrupted
  | badUtfDataFormat
  | badUtfDataFormatServer
  | messageIncomplete
  | invalidMessageLength
  | unexpectedMessageType
  | serverMessageNotSupported
  | internalAssertViolation
  | reservedBitSequence
  | invalidEventFlag
  | invalidSymbolLength
  | invalidSymbol
  | recordNotSupported
  | recordDescriptionNotReceived
  | recordFieldTypeNotSupported
  | csdecProtocolError
  | csdecUnsupportedVersion
  | insufficientMemory
  deriving DecidableEq, Repr

namespace BufferedIO

open FixedWidth PrefixCode

def INT_MAX : ℕ := 0x7FFFFFFF

/-- `IS_BUF_CAPACITY_ENOUGH` and `IS_CUR_CAPACITY_ENOUGH`; the sum of two `int`s wraps. -/
def isCapacityEnough (position bytes length : ℕ) : Bool :=
  Int32.ofNat position + Int32.ofNat bytes ≤ Int32.ofNat length

theorem isCapacityEnough_eq (position bytes : ℕ) {length : ℕ} (hlen : length ≤ INT_MAX)
    (hsum : position + bytes ≤ INT_MAX) :
    isCapacityEnough position bytes length = decide (position + bytes ≤ length) := by
  unfold INT_MAX at hlen hsum
  rw [isCapacityEnough, ← Int32.ofNat_add, decide_eq_decide]
  exact Int32.ofNat_le_iff_le (by omega) (by omega)

/-- The position and a number of bytes that overflow are taken for enough capacity. -/
theorem isCapacityEnough_overflow {position bytes length : ℕ} (hover : INT_MAX < position + bytes)
    (hsum : position + bytes ≤ length + 2 ^ 32) (hlen : length ≤ INT_MAX) :
    isCapacityEnough position bytes length = true := by
  unfold INT_MAX at *
  have hlength : (Int32.ofNat length).toInt = length := Int32.toInt_ofNat_of_lt (by omega)
  have hwrapped : (Int32.ofNat position + Int32.ofNat bytes).toInt =
      ((position + bytes : ℕ) : ℤ).bmod (2 ^ 32) := by
    rw [← Int32.ofNat_add, Int32.toInt_ofNat']
    rfl
  rw [isCapacityEnough, decide_eq_true_eq, Int32.le_iff_toInt_le, hlength, hwrapped, Int.bmod_def]
  omega

theorem toInt_add_of_le {a b : ℕ} (h : a + b ≤ INT_MAX) :
    (Int32.ofNat a + Int32.ofNat b).toInt = a + b := by
  unfold INT_MAX at h
  rw [← Int32.ofNat_add, Int32.toInt_ofNat_of_lt (by omega)]
  exact Nat.cast_add a b

/-- `dx_get_compact_size`. -/
def getCompactSize (value : Int64) : ℕ :=
  if value ≥ 0 then
    if value < 0x40 then 1
    else if value < 0x2000 then 2
    else if value < 0x100000 then 3
    else if value < 0x08000000 then 4
    else if value < 0x0400000000 then 5
    else if value < 0x020000000000 then 6
    else if value < 0x01000000000000 then 7
    else if value < 0x80000000000000 then 8
    else 9
  else
    if value ≥ -0x40 then 1
    else if value ≥ -0x2000 then 2
    else if value ≥ -0x100000 then 3
    else if value ≥ -0x08000000 then 4
    else if value ≥ -0x0400000000 then 5
    else if value ≥ -0x020000000000 then 6
    else if value ≥ -0x01000000000000 then 7
    else if value ≥ -0x80000000000000 then 8
    else 9

theorem fits_of_nonneg {k : ℕ} {v : ℤ} (h : 0 ≤ v) : Fits k v ↔ v < 2 ^ (width k - 1) := by
  have hpos : (0 : ℤ) < 2 ^ (width k - 1) := by positivity
  unfold Fits
  omega

theorem fits_of_neg {k : ℕ} {v : ℤ} (h : v < 0) : Fits k v ↔ -2 ^ (width k - 1) ≤ v := by
  have hpos : (0 : ℤ) < 2 ^ (width k - 1) := by positivity
  unfold Fits
  omega

/-- The compact size is one more than the size class of the prefix code. -/
theorem getCompactSize_eq (value : Int64) :
    getCompactSize value = sizeClass value.toInt + 1 := by
  unfold getCompactSize sizeClass
  simp only [ge_iff_le, Int64.le_iff_toInt_le, Int64.lt_iff_toInt_lt, Int64.toInt_zero]
  rcases le_or_gt 0 value.toInt with h | h
  · rw [if_pos h]
    simp only [fits_of_nonneg h, apply_ite (· + 1)]
    iterate 8 refine if_congr Iff.rfl rfl ?_
    rfl
  · rw [if_neg (not_le.mpr h)]
    simp only [fits_of_neg h, apply_ite (· + 1)]
    iterate 8 refine if_congr Iff.rfl rfl ?_
    rfl

end BufferedIO

end DxFeed
