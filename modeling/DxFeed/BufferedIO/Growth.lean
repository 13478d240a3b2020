import DxFeed.BufferedIO.UtfString

/-!
# The growth of the output buffer

* `ensureCapacityWith`, `checkWritePossibilityWith`, `reserveWith`: the calls that find room, where
  the allocation of the new block may fail;
* `FindsRoom`: with success there is room behind the position, with the old bytes in place, and
  without it nothing has changed;
* `findsRoom_iff`: the calls do that as long as the capacity test does not wrap.
-/

namespace DxFeed.BufferedIO

open Call

/-- `dx_ensure_capacity`; `allocated` tells whether `dx_malloc` gives the new block. -/
def ensureCapacityWith (allocated : Bool) (requiredCapacity : ℕ) : WriteCall Unit := do
  let context ← get
  let position := context.currentOutBufferPosition
  let length := context.outBufferLength
  if INT_MAX - position < length then
    throw .bufferOverflow
  else if !isCapacityEnough position requiredCapacity length then
    let tmpMin := min (length * 2) INT_MAX
    let required := (Int32.ofNat position + Int32.ofNat requiredCapacity).toInt.toNat
    let newLength := max (max tmpMin 1024) required
    if !allocated then
      throw .insufficientMemory
    else
      set { context with
        outBuffer := some (context.buffer ++ List.replicate (newLength - length) 0) }

/-- `dx_check_write_possibility`. -/
def checkWritePossibilityWith (allocated : Bool) (bytesToWrite : ℕ) : WriteCall Unit := do
  let context ← get
  if context.outBuffer.isNone then
    throw .bufferNotInitialized
  else if !isCapacityEnough context.currentOutBufferPosition bytesToWrite
      context.outBufferLength then
    ensureCapacityWith allocated bytesToWrite

/-- The test in front of the copy of `dx_write_byte_buffer_segment`. -/
def reserveWith (allocated : Bool) (n : ℕ) : WriteCall Unit := do
  let context ← get
  if !isCapacityEnough context.currentOutBufferPosition n context.outBufferLength then
    ensureCapacityWith allocated n

/-! ### Allocations that succeed -/

theorem reserveWith_true (n : ℕ) : reserveWith true n = reserve n := rfl

/-! ### Room -/

/-- There is room for `n` bytes, and the bytes of the buffer are kept. -/
structure Grows (n : ℕ) (context context' : OutputContext) : Prop where
  room : context'.currentOutBufferPosition + n ≤ context'.outBufferLength
  position : context'.currentOutBufferPosition = context.currentOutBufferPosition
  kept : context'.buffer.take context.outBufferLength = context.buffer
  length_le : context.outBufferLength ≤ context'.outBufferLength

/-- With success the call has found room for `n` bytes, and without it nothing has changed. -/
def FindsRoom (n : ℕ) (x : WriteCall Unit) (context : OutputContext) : Prop :=
  match exec x context with
  | (.ok (), context') => Grows n context context'
  | (.error _, context') => context' = context

section FindsRoom

variable {context : OutputContext} {n : ℕ}

/-- A call that changes nothing has found room if there was room. -/
theorem findsRoom_pure :
    FindsRoom n (pure ()) context ↔
      context.currentOutBufferPosition + n ≤ context.outBufferLength := by
  constructor
  · intro h
    exact Grows.room h
  · intro h
    exact ⟨h, rfl, List.take_length, le_rfl⟩

theorem findsRoom_throw (e : ErrorCode) : FindsRoom n (throw e) context := rfl

/-- A call that looks at the state first. -/
theorem findsRoom_get_bind (x : OutputContext → WriteCall Unit) :
    FindsRoom n (get >>= x) context ↔ FindsRoom n (x context) context := by
  rw [FindsRoom, exec_bind_ok (exec_get _), FindsRoom]

/-- A longer buffer with the old bytes in front. -/
theorem findsRoom_set {zeros : List Int8}
    (hroom : context.currentOutBufferPosition + n ≤ context.outBufferLength + zeros.length) :
    FindsRoom n (set { context with outBuffer := some (context.buffer ++ zeros) }) context := by
  have hlength : (context.buffer ++ zeros).length = context.outBufferLength + zeros.length :=
    List.length_append
  refine ⟨?_, rfl, ?_, ?_⟩
  · exact hroom.trans_eq hlength.symm
  · exact List.take_left
  · exact (Nat.le_add_right _ _).trans_eq hlength.symm

/-- `dx_ensure_capacity` finds room if the sum of the position and the capacity does not wrap, or if
the guard in front of the test rejects the buffer. -/
theorem findsRoom_ensureCapacityWith (allocated : Bool)
    (hposition : context.currentOutBufferPosition ≤ context.outBufferLength)
    (hlength : context.outBufferLength ≤ INT_MAX) (hn : n ≤ INT_MAX) :
    FindsRoom n (ensureCapacityWith allocated n) context ↔
      context.currentOutBufferPosition + n ≤ INT_MAX ∨
        INT_MAX < context.currentOutBufferPosition + context.outBufferLength := by
  have hguard : INT_MAX - context.currentOutBufferPosition < context.outBufferLength ↔
      INT_MAX < context.currentOutBufferPosition + context.outBufferLength := by omega
  rw [ensureCapacityWith, findsRoom_get_bind]
  simp only [hguard]
  by_cases hover : INT_MAX < context.currentOutBufferPosition + context.outBufferLength
  · rw [if_pos hover]
    exact iff_of_true (findsRoom_throw _) (Or.inr hover)
  rw [if_neg hover]
  by_cases hsum : context.currentOutBufferPosition + n ≤ INT_MAX
  · refine iff_of_true ?_ (Or.inl hsum)
    rw [isCapacityEnough_eq _ _ hlength hsum, toInt_add_of_le hsum]
    by_cases henough : context.currentOutBufferPosition + n ≤ context.outBufferLength
    · rw [decide_eq_true henough]
      exact findsRoom_pure.mpr henough
    · rw [decide_eq_false henough]
      cases allocated with
      | false => exact findsRoom_throw _
      | true =>
          apply findsRoom_set
          rw [List.length_replicate]
          omega
  · -- the sum wraps, and the test takes the buffer as it is
    have henough := isCapacityEnough_overflow (Nat.lt_of_not_le hsum)
      (by unfold INT_MAX at *; omega) hlength
    rw [henough]
    refine iff_of_false ?_ (not_or.mpr ⟨hsum, hover⟩)
    intro hfinds
    have hroom := findsRoom_pure.mp hfinds
    omega

/-- The same behind a first test of the capacity. -/
theorem findsRoom_reserveWith (allocated : Bool)
    (hposition : context.currentOutBufferPosition ≤ context.outBufferLength)
    (hlength : context.outBufferLength ≤ INT_MAX) (hn : n ≤ INT_MAX) :
    FindsRoom n (reserveWith allocated n) context ↔
      context.currentOutBufferPosition + n ≤ INT_MAX := by
  rw [reserveWith, findsRoom_get_bind]
  by_cases hsum : context.currentOutBufferPosition + n ≤ INT_MAX
  · refine iff_of_true ?_ hsum
    rw [isCapacityEnough_eq _ _ hlength hsum]
    by_cases henough : context.currentOutBufferPosition + n ≤ context.outBufferLength
    · rw [decide_eq_true henough]
      exact findsRoom_pure.mpr henough
    · rw [decide_eq_false henough]
      exact (findsRoom_ensureCapacityWith allocated hposition hlength hn).mpr (Or.inl hsum)
  · have henough := isCapacityEnough_overflow (Nat.lt_of_not_le hsum)
      (by unfold INT_MAX at *; omega) hlength
    rw [henough]
    refine iff_of_false ?_ hsum
    intro hfinds
    have hroom := findsRoom_pure.mp hfinds
    omega

theorem findsRoom_checkWritePossibilityWith (allocated : Bool)
    (hposition : context.currentOutBufferPosition ≤ context.outBufferLength)
    (hlength : context.outBufferLength ≤ INT_MAX) (hn : n ≤ INT_MAX) :
    FindsRoom n (checkWritePossibilityWith allocated n) context ↔
      context.outBuffer = none ∨ context.currentOutBufferPosition + n ≤ INT_MAX := by
  have hreserve := findsRoom_reserveWith allocated hposition hlength hn
  rw [reserveWith, findsRoom_get_bind] at hreserve
  rw [checkWritePossibilityWith, findsRoom_get_bind]
  cases hbuffer : context.outBuffer with
  | none => exact iff_of_true (findsRoom_throw _) (Or.inl rfl)
  | some buffer =>
      simp only [reduceCtorEq, false_or]
      exact hreserve

end FindsRoom

/-- The calls that ask for room find it, or leave the buffer as it was, if and only if the sum of
the position and the number of bytes does not wrap, or they fail in front of the test. -/
theorem findsRoom_iff (allocated : Bool) (context : OutputContext) (n : ℕ)
    (hposition : context.currentOutBufferPosition ≤ context.outBufferLength)
    (hlength : context.outBufferLength ≤ INT_MAX) (hn : n ≤ INT_MAX) :
    (FindsRoom n (checkWritePossibilityWith allocated n) context ↔
      context.outBuffer = none ∨ context.currentOutBufferPosition + n ≤ INT_MAX) ∧
    (FindsRoom n (ensureCapacityWith allocated n) context ↔
      context.currentOutBufferPosition + n ≤ INT_MAX ∨
        INT_MAX < context.currentOutBufferPosition + context.outBufferLength) ∧
    (FindsRoom n (reserveWith allocated n) context ↔
      context.currentOutBufferPosition + n ≤ INT_MAX) :=
  ⟨findsRoom_checkWritePossibilityWith allocated hposition hlength hn,
    findsRoom_ensureCapacityWith allocated hposition hlength hn,
    findsRoom_reserveWith allocated hposition hlength hn⟩

/-- Three bytes behind a buffer that is full. -/
theorem findsRoom_three :
    (FindsRoom 3 (checkWritePossibilityWith true 3) (outputAt [1, 2] []) ↔
      (outputAt [1, 2] []).outBuffer = none ∨
        (outputAt [1, 2] []).currentOutBufferPosition + 3 ≤ INT_MAX) ∧
    (FindsRoom 3 (ensureCapacityWith true 3) (outputAt [1, 2] []) ↔
      (outputAt [1, 2] []).currentOutBufferPosition + 3 ≤ INT_MAX ∨
        INT_MAX < (outputAt [1, 2] []).currentOutBufferPosition +
          (outputAt [1, 2] []).outBufferLength) ∧
    (FindsRoom 3 (reserveWith true 3) (outputAt [1, 2] []) ↔
      (outputAt [1, 2] []).currentOutBufferPosition + 3 ≤ INT_MAX) :=
  findsRoom_iff true (outputAt [1, 2] []) 3 (by decide) (by decide) (by decide)

/-- Behind the five bytes of its length, an array of `INT_MAX` bytes passes the test. -/
theorem not_findsRoom_max :
    ¬ FindsRoom INT_MAX (checkWritePossibilityWith true INT_MAX)
        (outputAt [-16, 127, -1, -1, -1] [0, 0, 0]) ∧
      ¬ FindsRoom INT_MAX (ensureCapacityWith true INT_MAX)
        (outputAt [-16, 127, -1, -1, -1] [0, 0, 0]) ∧
      ¬ FindsRoom INT_MAX (reserveWith true INT_MAX)
        (outputAt [-16, 127, -1, -1, -1] [0, 0, 0]) := by
  refine ⟨fun h => ?_, fun h => ?_, fun h => ?_⟩ <;>
    exact absurd (Grows.room h) (by decide)

end DxFeed.BufferedIO
