import DxFeed.BufferedIO.Common

/-!
# The output stream of `BufferedOutput.c`

* `ensureCapacity`, `checkWritePossibility`;
* `writeIntUnchecked`, `writeCompactInt`, `writeCompactLong`;
* `Writes x bs`: with enough room, `x` writes the bytes `bs` and nothing else.

Allocations succeed; the bytes of a new block that nothing has written yet are 0.
-/

namespace DxFeed.BufferedIO

open Call FixedWidth PrefixCode

/-- `dx_buffered_output_connection_context_t`; `none` is a null buffer. -/
structure OutputContext where
  outBuffer : Option (List Int8)
  currentOutBufferPosition : ℕ
  deriving DecidableEq, Repr

namespace OutputContext

variable (context : OutputContext)

def buffer : List Int8 :=
  context.outBuffer.getD []

def outBufferLength : ℕ :=
  context.buffer.length

/-- The bytes between `start` and the current position. -/
def writtenFrom (start : ℕ) : List Int8 :=
  (context.buffer.take context.currentOutBufferPosition).drop start

end OutputContext

abbrev WriteCall := Call ErrorCode OutputContext

/-- `dx_ensure_capacity`. -/
def ensureCapacity (requiredCapacity : ℕ) : WriteCall Unit := do
  let context ← get
  let position := context.currentOutBufferPosition
  let length := context.outBufferLength
  if INT_MAX - position < length then
    throw .bufferOverflow
  else if !isCapacityEnough position requiredCapacity length then
    let tmpMin := min (length * 2) INT_MAX
    let required := (Int32.ofNat position + Int32.ofNat requiredCapacity).toInt.toNat
    let newLength := max (max tmpMin 1024) required
    set { context with
      outBuffer := some (context.buffer ++ List.replicate (newLength - length) 0) }

/-- `dx_check_write_possibility`. -/
def checkWritePossibility (bytesToWrite : ℕ) : WriteCall Unit := do
  let context ← get
  if context.outBuffer.isNone then
    throw .bufferNotInitialized
  else if !isCapacityEnough context.currentOutBufferPosition bytesToWrite
      context.outBufferLength then
    ensureCapacity bytesToWrite

/-- The cast `(dxf_byte_t)value`. -/
def toByte (value : Int32) : Int8 :=
  value.toInt8

/-- `out_buffer[current_out_buffer_position++] = value`. -/
def putByte (value : Int8) : WriteCall Unit :=
  modify fun context =>
    { outBuffer := context.outBuffer.map (·.set context.currentOutBufferPosition value)
      currentOutBufferPosition := context.currentOutBufferPosition + 1 }

/-- `dx_write_int_unchecked`. -/
def writeIntUnchecked (value : Int32) : WriteCall Unit := do
  putByte (toByte (value >>> 24))
  putByte (toByte (value >>> 16))
  putByte (toByte (value >>> 8))
  putByte (toByte value)

/-- `dx_write_byte`. -/
def writeByte (value : Int8) : WriteCall Unit := do
  checkWritePossibility 1
  putByte value

/-- `dx_write_short`. -/
def writeShort (value : Int16) : WriteCall Unit := do
  checkWritePossibility 2
  putByte (value >>> 8).toInt8
  putByte value.toInt8

/-- `dx_write_int`. -/
def writeInt (value : Int32) : WriteCall Unit := do
  checkWritePossibility 4
  writeIntUnchecked value

/-- What `dx_write_compact_int` writes once there is room for 5 bytes. -/
def writeCompactIntUnchecked (value : Int32) : WriteCall Unit :=
  if value ≥ 0 then
    if value < 0x40 then
      putByte (toByte value)
    else if value < 0x2000 then do
      putByte (toByte ((0x80 : Int32) ||| value >>> 8))
      putByte (toByte value)
    else if value < 0x100000 then do
      putByte (toByte ((0xC0 : Int32) ||| value >>> 16))
      putByte (toByte (value >>> 8))
      putByte (toByte value)
    else if value < 0x08000000 then
      writeIntUnchecked (0xE0000000 ||| value.toUInt32).toInt32
    else do
      putByte (toByte 0xF0)
      writeIntUnchecked value
  else
    if value ≥ -0x40 then
      putByte (toByte (0x7F &&& value))
    else if value ≥ -0x2000 then do
      putByte (toByte ((0xBF : Int32) &&& value >>> 8))
      putByte (toByte value)
    else if value ≥ -0x100000 then do
      putByte (toByte ((0xDF : Int32) &&& value >>> 16))
      putByte (toByte (value >>> 8))
      putByte (toByte value)
    else if value ≥ -0x08000000 then
      writeIntUnchecked (0xEFFFFFFF &&& value.toUInt32).toInt32
    else do
      putByte (toByte 0xF7)
      writeIntUnchecked value

/-- `dx_write_compact_int`. -/
def writeCompactInt (value : Int32) : WriteCall Unit := do
  checkWritePossibility 5
  writeCompactIntUnchecked value

/-- The bytes that `dx_write_compact_long` writes before the low word. -/
def writeCompactHigh (hi : Int32) : WriteCall Unit :=
  if hi ≥ 0 then
    if hi < 0x04 then
      putByte (toByte (0xF0 ||| hi))
    else if hi < 0x0200 then do
      putByte (toByte ((0xF8 : Int32) ||| hi >>> 8))
      putByte (toByte hi)
    else if hi < 0x010000 then do
      putByte (toByte 0xFC)
      putByte (toByte (hi >>> 8))
      putByte (toByte hi)
    else if hi < 0x800000 then
      writeIntUnchecked (0xFE000000 ||| hi.toUInt32).toInt32
    else do
      putByte (toByte 0xFF)
      writeIntUnchecked hi
  else
    if hi ≥ -0x04 then
      putByte (toByte (0xF7 &&& hi))
    else if hi ≥ -0x0200 then do
      putByte (toByte ((0xFB : Int32) &&& hi >>> 8))
      putByte (toByte hi)
    else if hi ≥ -0x010000 then do
      putByte (toByte 0xFD)
      putByte (toByte (hi >>> 8))
      putByte (toByte hi)
    else if hi ≥ -0x800000 then
      writeIntUnchecked (0xFEFFFFFF &&& hi.toUInt32).toInt32
    else do
      putByte (toByte 0xFF)
      writeIntUnchecked hi

/-- `dx_write_compact_long`. -/
def writeCompactLong (value : Int64) : WriteCall Unit := do
  let hi := (value >>> 32).toInt32
  if value = value.toInt32.toInt64 then
    writeCompactInt value.toInt32
  else
    checkWritePossibility 9
    writeCompactHigh hi
    writeIntUnchecked value.toInt32

/-! ### Writing in place -/

/-- The stream that has written `pre` and has `room` left in its buffer. -/
def outputAt (pre room : List Int8) : OutputContext :=
  ⟨some (pre ++ room), pre.length⟩

/-- Wherever there is room for them, the call writes the bytes `bs`. -/
def Writes (x : WriteCall Unit) (bs : List Int8) : Prop :=
  ∀ pre room, bs.length ≤ room.length →
    exec x (outputAt pre room) = (.ok (), outputAt (pre ++ bs) (room.drop bs.length))

theorem writes_putByte (b : Int8) : Writes (putByte b) [b] := by
  intro pre room hroom
  cases room with
  | nil => simp at hroom
  | cons x room => simp [putByte, outputAt]

theorem Writes.bind {x y : WriteCall Unit} {bs cs : List Int8} (hx : Writes x bs)
    (hy : Writes y cs) : Writes (do x; y) (bs ++ cs) := by
  intro pre room hroom
  rw [List.length_append] at hroom
  have hx' := hx pre room (by omega)
  have hy' := hy (pre ++ bs) (room.drop bs.length) (by rw [List.length_drop]; omega)
  show exec (x >>= fun _ => y) _ = _
  rw [exec_bind_ok hx', hy', List.drop_drop, List.append_assoc, List.length_append]

/-- The bytes of a word, most significant first. -/
def intBytes (value : Int32) : List Int8 :=
  [toByte (value >>> 24), toByte (value >>> 16), toByte (value >>> 8), toByte value]

theorem writes_writeIntUnchecked (value : Int32) :
    Writes (writeIntUnchecked value) (intBytes value) :=
  (writes_putByte _).bind ((writes_putByte _).bind ((writes_putByte _).bind (writes_putByte _)))

theorem octet_toByte (value : Int32) : (octet (toByte value) : ℤ) = value.toInt % 256 :=
  octet_toInt8 value

theorem octet_toByte_or (a b : Int32) :
    octet (toByte (a ||| b)) = octet (toByte a) ||| octet (toByte b) := by
  simp [toByte, octet]

theorem octet_toByte_and (a b : Int32) :
    octet (toByte (a &&& b)) = octet (toByte a) &&& octet (toByte b) := by
  simp [toByte, octet]

theorem octet_or_mask (mask value : Int32) (m i : ℕ) (hmask : octet (toByte mask) = m)
    (hm : m % 2 ^ i = 0) (hr : octet (toByte value) < 2 ^ i) :
    octet (toByte (mask ||| value)) = m + octet (toByte value) := by
  rw [octet_toByte_or, hmask, or_eq_add hm hr]

theorem octet_and_mask (mask value : Int32) (i m h : ℕ)
    (hmask : octet (toByte mask) = 2 ^ i * m + (2 ^ i - 1))
    (hvalue : octet (toByte value) / 2 ^ i = h) :
    octet (toByte (mask &&& value)) = 2 ^ i * (h &&& m) + octet (toByte value) % 2 ^ i := by
  rw [octet_toByte_and, hmask, and_eq_add hvalue]

/-- The byte `(dxf_byte_t)(value >> s)`. -/
theorem octet_toByte_shiftRight (value : Int32) {s : Int32} {k : ℕ}
    (hs : (s.toBitVec.smod 32).toNat = k) :
    (octet (toByte (value >>> s)) : ℤ) = value.toInt / 2 ^ k % 256 := by
  rw [octet_toByte, toInt_shiftRight value hs]

theorem octets_intBytes (value : Int32) :
    (intBytes value).map octet = beOctets 4 (word value) := by
  have hw := word_eq value
  have h₀ := octet_toByte value
  have h₁ := octet_toByte_shiftRight value (s := 8) (k := 8) rfl
  have h₂ := octet_toByte_shiftRight value (s := 16) (k := 16) rfl
  have h₃ := octet_toByte_shiftRight value (s := 24) (k := 24) rfl
  simp only [intBytes, beOctets, List.map_cons, List.map_nil, List.cons.injEq, and_true]
  omega

/-! ### The writer follows the prefix code -/

/-- The octets written for a 32-bit value are its prefix code. -/
theorem writes_writeCompactIntUnchecked (value : Int32) :
    ∃ bs, Writes (writeCompactIntUnchecked value) bs ∧ bs.map octet = encode value.toInt := by
  unfold writeCompactIntUnchecked
  simp only [ge_iff_le, Int32.le_iff_toInt_le, Int32.lt_iff_toInt_lt]
  have h₀ := octet_toByte value
  have h₁ := octet_toByte_shiftRight value (s := 8) (k := 8) rfl
  have h₂ := octet_toByte_shiftRight value (s := 16) (k := 16) rfl
  have hw := word_eq value
  have hmin := value.le_toInt
  have hmax := value.toInt_lt
  -- the branches of the source: one to five bytes without a sign, and one to five with it
  split_ifs with hpos h1 h2 h3 h4 k1 k2 k3 k4 <;> simp at *
  · refine ⟨_, writes_putByte _, ?_⟩
    have hk : sizeClass value.toInt = 0 := sizeClass_zero (by simp [Fits, width]; omega)
    rw [encode, hk]
    simp [beOctets, pattern, header, width]
    omega
  · refine ⟨_, (writes_putByte _).bind (writes_putByte _), ?_⟩
    have hk : sizeClass value.toInt = 1 :=
      sizeClass_succ (by decide) (by simp [Fits, width]; omega) (by simp [Fits, width]; omega)
    have hhead := octet_or_mask 0x80 (value >>> 8) 0x80 7 rfl rfl (by omega)
    rw [encode, hk]
    simp [beOctets, pattern, header, width, hhead]
    omega
  · refine ⟨_, (writes_putByte _).bind ((writes_putByte _).bind (writes_putByte _)), ?_⟩
    have hk : sizeClass value.toInt = 2 :=
      sizeClass_succ (by decide) (by simp [Fits, width]; omega) (by simp [Fits, width]; omega)
    have hhead := octet_or_mask 0xC0 (value >>> 16) 0xC0 6 rfl rfl (by omega)
    rw [encode, hk]
    simp [beOctets, pattern, header, width, hhead]
    omega
  · refine ⟨_, writes_writeIntUnchecked _, ?_⟩
    have hk : sizeClass value.toInt = 3 :=
      sizeClass_succ (by decide) (by simp [Fits, width]; omega) (by simp [Fits, width]; omega)
    have hword := word_or_mask 0xE0000000 value 0xE0000000 28 rfl rfl (by omega)
    rw [encode, hk, octets_intBytes, hword]
    simp [pattern, header, width]
    congr 1
    omega
  · refine ⟨_, (writes_putByte _).bind (writes_writeIntUnchecked _), ?_⟩
    have hk : sizeClass value.toInt = 4 :=
      sizeClass_succ (by decide) (by simp [Fits, width]; omega) (by simp [Fits, width]; omega)
    have hhead : octet (toByte 0xF0) = 0xF0 := rfl
    rw [encode, hk, List.map_append, octets_intBytes]
    simp [beOctets, pattern, header, width, hhead]
    omega
  · refine ⟨_, writes_putByte _, ?_⟩
    have hk : sizeClass value.toInt = 0 := sizeClass_zero (by simp [Fits, width]; omega)
    have hhead := octet_and_mask 0x7F value 7 0 1 rfl (by omega)
    rw [encode, hk]
    simp [beOctets, pattern, header, width, hhead]
    omega
  · refine ⟨_, (writes_putByte _).bind (writes_putByte _), ?_⟩
    have hk : sizeClass value.toInt = 1 :=
      sizeClass_succ (by decide) (by simp [Fits, width]; omega) (by simp [Fits, width]; omega)
    have hhead := octet_and_mask 0xBF (value >>> 8) 6 2 3 rfl (by omega)
    rw [encode, hk]
    simp [beOctets, pattern, header, width, hhead]
    omega
  · refine ⟨_, (writes_putByte _).bind ((writes_putByte _).bind (writes_putByte _)), ?_⟩
    have hk : sizeClass value.toInt = 2 :=
      sizeClass_succ (by decide) (by simp [Fits, width]; omega) (by simp [Fits, width]; omega)
    have hhead := octet_and_mask 0xDF (value >>> 16) 5 6 7 rfl (by omega)
    rw [encode, hk]
    simp [beOctets, pattern, header, width, hhead]
    omega
  · refine ⟨_, writes_writeIntUnchecked _, ?_⟩
    have hk : sizeClass value.toInt = 3 :=
      sizeClass_succ (by decide) (by simp [Fits, width]; omega) (by simp [Fits, width]; omega)
    have hword := word_and_mask 0xEFFFFFFF value 28 14 15 rfl (by omega)
    rw [encode, hk, octets_intBytes, hword]
    simp [pattern, header, width]
    congr 1
    omega
  · refine ⟨_, (writes_putByte _).bind (writes_writeIntUnchecked _), ?_⟩
    have hk : sizeClass value.toInt = 4 :=
      sizeClass_succ (by decide) (by simp [Fits, width]; omega) (by simp [Fits, width]; omega)
    have hhead : octet (toByte 0xF7) = 0xF7 := rfl
    rw [encode, hk, List.map_append, octets_intBytes]
    simp [beOctets, pattern, header, width, hhead]
    omega

/-- The octets written for the high word, followed by those of the low word, are the prefix
code of a value that does not fit in 32 bits. -/
theorem writes_writeCompactHigh (hi : Int32) {v : ℤ} {low : ℕ} (hlow : low < 2 ^ 32)
    (hv : v = hi.toInt * 2 ^ 32 + low) (hwide : v < -2 ^ 31 ∨ 2 ^ 31 ≤ v) :
    ∃ bs, Writes (writeCompactHigh hi) bs ∧ bs.map octet ++ beOctets 4 low = encode v := by
  unfold writeCompactHigh
  simp only [ge_iff_le, Int32.le_iff_toInt_le, Int32.lt_iff_toInt_lt]
  have h₀ := octet_toByte hi
  have h₁ := octet_toByte_shiftRight hi (s := 8) (k := 8) rfl
  have hw := word_eq hi
  have hmin := hi.le_toInt
  have hmax := hi.toInt_lt
  -- the same branches; the header has the bits of the class in front of those of the high word
  split_ifs with hpos h1 h2 h3 h4 k1 k2 k3 k4 <;> simp at *
  · refine ⟨_, writes_putByte _, ?_⟩
    have hk : sizeClass v = 4 :=
      sizeClass_succ (by decide) (by simp [Fits, width]; omega) (by simp [Fits, width]; omega)
    have hhead := octet_or_mask 0xF0 hi 0xF0 4 rfl rfl (by omega)
    rw [encode_high hi.toInt hk (by omega) (by omega)]
    simp [beOctets, highPattern, header, width, hhead]
    omega
  · refine ⟨_, (writes_putByte _).bind (writes_putByte _), ?_⟩
    have hk : sizeClass v = 5 :=
      sizeClass_succ (by decide) (by simp [Fits, width]; omega) (by simp [Fits, width]; omega)
    have hhead := octet_or_mask 0xF8 (hi >>> 8) 0xF8 3 rfl rfl (by omega)
    rw [encode_high hi.toInt hk (by omega) (by omega)]
    simp [beOctets, highPattern, header, width, hhead]
    omega
  · refine ⟨_, (writes_putByte _).bind ((writes_putByte _).bind (writes_putByte _)), ?_⟩
    have hk : sizeClass v = 6 :=
      sizeClass_succ (by decide) (by simp [Fits, width]; omega) (by simp [Fits, width]; omega)
    have hhead : octet (toByte 0xFC) = 0xFC := rfl
    rw [encode_high hi.toInt hk (by omega) (by omega)]
    simp [beOctets, highPattern, header, width, hhead]
    omega
  · refine ⟨_, writes_writeIntUnchecked _, ?_⟩
    have hk : sizeClass v = 7 :=
      sizeClass_succ (by decide) (by simp [Fits, width]; omega) (by simp [Fits, width]; omega)
    have hword := word_or_mask 0xFE000000 hi 0xFE000000 25 rfl rfl (by omega)
    rw [encode_high hi.toInt hk (by omega) (by omega), octets_intBytes, hword]
    simp [highPattern, header, width]
    congr 1
    omega
  · refine ⟨_, (writes_putByte _).bind (writes_writeIntUnchecked _), ?_⟩
    have hk : sizeClass v = 8 :=
      sizeClass_succ (by decide) (by simp [Fits, width]; omega) (by simp [Fits, width]; omega)
    have hhead : octet (toByte 0xFF) = 0xFF := rfl
    rw [encode_high hi.toInt hk (by omega) (by omega), List.map_append, octets_intBytes]
    simp [beOctets, highPattern, header, width, hhead]
    omega
  · refine ⟨_, writes_putByte _, ?_⟩
    have hk : sizeClass v = 4 :=
      sizeClass_succ (by decide) (by simp [Fits, width]; omega) (by simp [Fits, width]; omega)
    have hhead := octet_and_mask 0xF7 hi 3 30 31 rfl (by omega)
    rw [encode_high hi.toInt hk (by omega) (by omega)]
    simp [beOctets, highPattern, header, width, hhead]
    omega
  · refine ⟨_, (writes_putByte _).bind (writes_putByte _), ?_⟩
    have hk : sizeClass v = 5 :=
      sizeClass_succ (by decide) (by simp [Fits, width]; omega) (by simp [Fits, width]; omega)
    have hhead := octet_and_mask 0xFB (hi >>> 8) 2 62 63 rfl (by omega)
    rw [encode_high hi.toInt hk (by omega) (by omega)]
    simp [beOctets, highPattern, header, width, hhead]
    omega
  · refine ⟨_, (writes_putByte _).bind ((writes_putByte _).bind (writes_putByte _)), ?_⟩
    have hk : sizeClass v = 6 :=
      sizeClass_succ (by decide) (by simp [Fits, width]; omega) (by simp [Fits, width]; omega)
    have hhead : octet (toByte 0xFD) = 0xFD := rfl
    rw [encode_high hi.toInt hk (by omega) (by omega)]
    simp [beOctets, highPattern, header, width, hhead]
    omega
  · refine ⟨_, writes_writeIntUnchecked _, ?_⟩
    have hk : sizeClass v = 7 :=
      sizeClass_succ (by decide) (by simp [Fits, width]; omega) (by simp [Fits, width]; omega)
    have hword := word_and_mask 0xFEFFFFFF hi 24 254 255 rfl (by omega)
    rw [encode_high hi.toInt hk (by omega) (by omega), octets_intBytes, hword]
    simp [highPattern, header, width]
    congr 1
    omega
  · refine ⟨_, (writes_putByte _).bind (writes_writeIntUnchecked _), ?_⟩
    have hk : sizeClass v = 8 :=
      sizeClass_succ (by decide) (by simp [Fits, width]; omega) (by simp [Fits, width]; omega)
    have hhead : octet (toByte 0xFF) = 0xFF := rfl
    rw [encode_high hi.toInt hk (by omega) (by omega), List.map_append, octets_intBytes]
    simp [beOctets, highPattern, header, width, hhead]
    omega

/-! ### Room -/

/-- The stream has a buffer, the position is inside it, and `n` more bytes fit, in the buffer
as it is or after it has grown. -/
structure OutputContext.HasRoom (context : OutputContext) (n : ℕ) : Prop where
  isSome : context.outBuffer.isSome
  position_le : context.currentOutBufferPosition ≤ context.outBufferLength
  length_le : context.outBufferLength ≤ INT_MAX
  fits : context.currentOutBufferPosition + n ≤ context.outBufferLength ∨
    context.currentOutBufferPosition + context.outBufferLength ≤ INT_MAX

theorem OutputContext.HasRoom.eq_outputAt {context : OutputContext} {n : ℕ}
    (h : context.HasRoom n) : ∃ pre room, context = outputAt pre room := by
  obtain ⟨_ | buffer, position⟩ := context
  · exact absurd h.isSome (by simp)
  · have hle : position ≤ buffer.length := h.position_le
    refine ⟨buffer.take position, buffer.drop position, ?_⟩
    simp [outputAt, hle]

@[simp] theorem currentOutBufferPosition_outputAt (pre room : List Int8) :
    (outputAt pre room).currentOutBufferPosition = pre.length := rfl

@[simp] theorem outBufferLength_outputAt (pre room : List Int8) :
    (outputAt pre room).outBufferLength = pre.length + room.length := by
  simp [outputAt, OutputContext.outBufferLength, OutputContext.buffer]

/-- A buffer that is too short grows. -/
theorem exec_ensureCapacity {pre room : List Int8} {n : ℕ} (hroom : room.length < n)
    (hmax : pre.length + (pre.length + room.length) ≤ INT_MAX) (hsum : pre.length + n ≤ INT_MAX) :
    ∃ room', exec (ensureCapacity n) (outputAt pre room) = (.ok (), outputAt pre room') ∧
      n ≤ room'.length ∧ pre.length + room'.length ≤ INT_MAX := by
  have hlen : pre.length + room.length ≤ INT_MAX := by omega
  have hcap := isCapacityEnough_eq _ _ hlen hsum
  have hover : ¬ INT_MAX - pre.length < pre.length + room.length := by omega
  have hlong : ¬ pre.length + n ≤ pre.length + room.length := by omega
  unfold ensureCapacity
  rw [exec_bind_ok (exec_get _)]
  simp only [outBufferLength_outputAt, currentOutBufferPosition_outputAt, hcap, hlong]
  rw [if_neg hover]
  rw [toInt_add_of_le hsum]
  refine ⟨room ++ List.replicate (max (max (min ((pre.length + room.length) * 2) INT_MAX) 1024)
    (pre.length + n) - (pre.length + room.length)) 0, ?_, ?_, ?_⟩
  · simp [OutputContext.buffer, outputAt]
    omega
  · rw [List.length_append, List.length_replicate]
    omega
  · rw [List.length_append, List.length_replicate]
    unfold INT_MAX at *
    omega

/-- Where there is room the check succeeds, and leaves room in the buffer. -/
theorem exec_checkWritePossibility {pre room : List Int8} {n : ℕ} (hn : n ≤ 9)
    (h : (outputAt pre room).HasRoom n) :
    ∃ room', exec (checkWritePossibility n) (outputAt pre room) = (.ok (), outputAt pre room') ∧
      n ≤ room'.length := by
  have hlen : pre.length + room.length ≤ INT_MAX := by
    simpa using h.length_le
  have hfits : n ≤ room.length ∨ pre.length + (pre.length + room.length) ≤ INT_MAX := by
    simpa using h.fits
  have hsum : pre.length + n ≤ INT_MAX := by
    unfold INT_MAX at *
    omega
  have hcap := isCapacityEnough_eq _ _ hlen hsum
  have hsome : (outputAt pre room).outBuffer.isNone = false := rfl
  unfold checkWritePossibility
  rw [exec_bind_ok (exec_get _)]
  simp only [outBufferLength_outputAt, currentOutBufferPosition_outputAt, hcap, hsome]
  by_cases hroom : n ≤ room.length
  · exact ⟨room, by simp [hroom], hroom⟩
  · obtain ⟨room', hexec, hle, -⟩ := exec_ensureCapacity (not_le.mp hroom) (by omega) hsum
    exact ⟨room', by simp [hroom, hexec], hle⟩

/-! ### Compact numbers written in place -/

theorem exec_writeCompactInt {pre room : List Int8} (value : Int32)
    (h : (outputAt pre room).HasRoom 5) :
    ∃ bs room', exec (writeCompactInt value) (outputAt pre room) =
      (.ok (), outputAt (pre ++ bs) room') ∧ bs.map octet = encode value.toInt := by
  obtain ⟨room', hcheck, hroom⟩ := exec_checkWritePossibility (by omega) h
  obtain ⟨bs, hwrites, hoctets⟩ := writes_writeCompactIntUnchecked value
  have hlen : bs.length ≤ 5 := by
    have hfits : Fits 4 value.toInt := ⟨by have := value.le_toInt; norm_num [width]; omega,
      by have := value.toInt_lt; norm_num [width]; omega⟩
    have := sizeClass_le_of_fits (by norm_num) hfits
    rw [← bs.length_map octet, hoctets, length_encode]
    omega
  refine ⟨bs, room'.drop bs.length, ?_, hoctets⟩
  rw [writeCompactInt, exec_bind_ok hcheck, hwrites pre room' (by omega)]

/-- The room that `dx_write_compact_long` asks for. -/
def roomForLong (value : Int64) : ℕ :=
  if value = value.toInt32.toInt64 then 5 else 9

theorem exec_writeCompactLong {pre room : List Int8} (value : Int64)
    (h : (outputAt pre room).HasRoom (roomForLong value)) :
    ∃ bs room', exec (writeCompactLong value) (outputAt pre room) =
      (.ok (), outputAt (pre ++ bs) room') ∧ bs.map octet = encode value.toInt := by
  unfold roomForLong at h
  unfold writeCompactLong
  dsimp only
  split_ifs at h with hsmall
  · obtain ⟨bs, room', hexec, hoctets⟩ := exec_writeCompactInt value.toInt32 h
    refine ⟨bs, room', by simpa [← hsmall] using hexec, ?_⟩
    rw [hoctets, ← Int32.toInt_toInt64, ← hsmall]
  · obtain ⟨room', hcheck, hroom⟩ := exec_checkWritePossibility le_rfl h
    obtain ⟨bs, hwrites, hoctets⟩ := writes_writeCompactHigh (value >>> 32).toInt32
      (word_lt value.toInt32) (toInt_eq_high_low value) (wide_of_ne hsmall)
    have hall := hwrites.bind (writes_writeIntUnchecked value.toInt32)
    have henc : (bs ++ intBytes value.toInt32).map octet = encode value.toInt := by
      rw [List.map_append, octets_intBytes, hoctets]
    have hlen : (bs ++ intBytes value.toInt32).length ≤ 9 := by
      rw [← List.length_map octet, henc, length_encode]
      exact Nat.succ_le_succ (sizeClass_le _)
    refine ⟨bs ++ intBytes value.toInt32, room'.drop (bs ++ intBytes value.toInt32).length, ?_, henc⟩
    rw [if_neg hsmall, exec_bind_ok hcheck, hall pre room' (by omega)]

end DxFeed.BufferedIO
