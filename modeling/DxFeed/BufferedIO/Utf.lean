import DxFeed.BufferedIO.Compact
import DxFeed.EventData
import DxFeed.Library.Utf8

/-!
# Strings in the streams

* `writeUtfString` of `BufferedOutput.c` and `readUtfString` of `BufferedInput.c`;
* `writes_utfBytes_*`, `reads_readUtf*`: the bytes of a code point;
* `utfChars`: a string as a list of characters, surrogate pairs and single code units.

A code point is a natural number, and so is the byte that a mask is put on: the masks only select
bits of the byte, whatever its sign.  The space for a string is allocated, and long enough.
-/

namespace DxFeed.BufferedIO

open Call FixedWidth PrefixCode

/-! ### Surrogates -/

/-- `dx_is_high_surrogate`. -/
def isHighSurrogate (value : UInt16) : Bool := 0xD800 ≤ value && value ≤ 0xDBFF

/-- `dx_is_low_surrogate`. -/
def isLowSurrogate (value : UInt16) : Bool := 0xDC00 ≤ value && value ≤ 0xDFFF

/-- `dx_surrogates_to_code_point`, of a high and a low surrogate. -/
def surrogatesToCodePoint (high low : UInt16) : ℕ :=
  (high.toNat - 0xD800) <<< 10 + (low.toNat - 0xDC00) + 0x10000

/-- `dx_code_point_to_surrogates`: the units it puts into the buffer. -/
def codePointToSurrogates (codePoint : ℕ) : WString :=
  let offset := codePoint - 0x10000
  [UInt16.ofNat (offset >>> 10 + 0xD800), UInt16.ofNat ((offset &&& 0x3FF) + 0xDC00)]

/-- `dx_code_point_to_utf16_chars`: the units it puts into a buffer of this length at this
position. -/
def codePointToUtf16Chars (codePoint destBufferPos : ℕ) (destBufferLength : ℤ) :
    ReadCall WString :=
  if codePoint > 0x10FFFF then throw .invalidFuncParamInternal
  else if codePoint < 0x10000 then
    if destBufferLength - destBufferPos < 1 then throw .indexOutOfBounds
    else return [UInt16.ofNat codePoint]
  else if destBufferLength - destBufferPos < 2 then throw .indexOutOfBounds
  else return codePointToSurrogates codePoint

/-! ### Writing -/

/-- The cast `(dxf_byte_t)` of a non-negative `int`. -/
def castByte (value : ℕ) : Int8 := Int8.ofNat value

/-- `dx_write_utf2_unchecked`. -/
def writeUtf2Unchecked (codePoint : ℕ) : WriteCall Unit := do
  putByte (castByte (0xC0 ||| codePoint >>> 6))
  putByte (castByte (0x80 ||| (codePoint &&& 0x3F)))

/-- `dx_write_utf3_unchecked`. -/
def writeUtf3Unchecked (codePoint : ℕ) : WriteCall Unit := do
  putByte (castByte (0xE0 ||| codePoint >>> 12))
  putByte (castByte (0x80 ||| (codePoint >>> 6 &&& 0x3F)))
  putByte (castByte (0x80 ||| (codePoint &&& 0x3F)))

/-- `dx_write_utf4_unchecked`. -/
def writeUtf4Unchecked (codePoint : ℕ) : WriteCall Unit := do
  putByte (castByte (0xF0 ||| codePoint >>> 18))
  putByte (castByte (0x80 ||| (codePoint >>> 12 &&& 0x3F)))
  putByte (castByte (0x80 ||| (codePoint >>> 6 &&& 0x3F)))
  putByte (castByte (0x80 ||| (codePoint &&& 0x3F)))

/-- The first loop of `dx_write_utf_string`: the number of bytes. -/
def utfLength : WString → ℕ
  | [] => 0
  | [c] => if c ≤ 0x7F then 1 else if c ≤ 0x7FF then 2 else 3
  | c :: d :: value =>
      if c ≤ 0x7F then 1 + utfLength (d :: value)
      else if c ≤ 0x7FF then 2 + utfLength (d :: value)
      else if isHighSurrogate c && isLowSurrogate d then 4 + utfLength value
      else 3 + utfLength (d :: value)

/-- `IS_CUR_CAPACITY_ENOUGH(context, n) || dx_ensure_capacity(context, n)`. -/
def reserve (n : ℕ) : WriteCall Unit := do
  let context ← get
  if !isCapacityEnough context.currentOutBufferPosition n context.outBufferLength then
    ensureCapacity n

/-- The second loop of `dx_write_utf_string`. -/
def writeUtfChars : WString → WriteCall Unit
  | [] => pure ()
  | [c] => do
      reserve 4
      if c ≤ 0x7F then putByte (castByte c.toNat)
      else if c ≤ 0x7FF then writeUtf2Unchecked c.toNat
      else writeUtf3Unchecked c.toNat
  | c :: d :: value => do
      reserve 4
      if c ≤ 0x7F then
        putByte (castByte c.toNat)
        writeUtfChars (d :: value)
      else if c ≤ 0x7FF then
        writeUtf2Unchecked c.toNat
        writeUtfChars (d :: value)
      else if isHighSurrogate c && isLowSurrogate d then
        writeUtf4Unchecked (surrogatesToCodePoint c d)
        writeUtfChars value
      else
        writeUtf3Unchecked c.toNat
        writeUtfChars (d :: value)

/-- `dx_write_utf_char`. -/
def writeUtfChar (codePoint : ℕ) : WriteCall Unit := do
  checkWritePossibility 4
  if codePoint ≤ 0x7F then putByte (castByte codePoint)
  else if codePoint ≤ 0x7FF then writeUtf2Unchecked codePoint
  else if codePoint ≤ 0xFFFF then writeUtf3Unchecked codePoint
  else if codePoint ≤ 0x10FFFF then writeUtf4Unchecked codePoint
  else throw .badUtfDataFormat

/-- `dx_write_utf_string`; `none` is a null pointer.  The number of bytes is an `int` that is
compared as a `size_t`. -/
def writeUtfString : Option WString → WriteCall Unit
  | none => writeCompactInt (-1)
  | some value => do
      let utflen := Int32.ofNat (utfLength value)
      if utflen.toInt64.toUInt64.toNat < value.length then throw .badUtfDataFormat
      writeCompactInt utflen
      writeUtfChars value

/-! ### Reading -/

/-- The value that `dx_read_short` makes of two bytes. -/
def shortOf (b₁ b₀ : Int8) : Int16 := b₁.toInt16 <<< 8 ||| (b₀.toInt16 &&& 0xFF)

/-- `dx_read_short`. -/
def readShort : ReadCall Int16 := do
  validateBuffer 2
  let b₁ ← nextByte
  let b₀ ← nextByte
  return shortOf b₁ b₀

/-- The bits of a short. -/
def half (value : Int16) : ℕ := value.toBitVec.toNat

/-- `dx_read_utf2`. -/
def readUtf2 (first : Int8) : ReadCall UInt16 := do
  let second ← readByte
  if octet second &&& 0xC0 ≠ 0x80 then throw .badUtfDataFormatServer
  else return UInt16.ofNat ((octet first &&& 0x1F) <<< 6 ||| (octet second &&& 0x3F))

/-- `dx_read_utf3`. -/
def readUtf3 (first : Int8) : ReadCall UInt16 := do
  let tail ← readShort
  if half tail &&& 0xC0C0 ≠ 0x8080 then throw .badUtfDataFormatServer
  else
    return UInt16.ofNat
      ((octet first &&& 0x0F) <<< 12 ||| (half tail &&& 0x3F00) >>> 2 ||| (half tail &&& 0x3F))

/-- `dx_read_utf4`. -/
def readUtf4 (first : Int8) : ReadCall ℕ := do
  let second ← readByte
  let tail ← readShort
  if octet second &&& 0xC0 ≠ 0x80 ∨ half tail &&& 0xC0C0 ≠ 0x8080 then
    throw .badUtfDataFormatServer
  else
    let res := (octet first &&& 0x07) <<< 18 ||| (octet second &&& 0x3F) <<< 12 |||
      (half tail &&& 0x3F00) >>> 2 ||| (half tail &&& 0x3F)
    if res > 0x10FFFF then throw .badUtfDataFormatServer
    else return res

/-- What a character takes off the length, which counts bytes or characters. -/
def lengthStep (lenInChars : Bool) (bytes : ℕ) : ℤ := if lenInChars then 1 else bytes

theorem lengthStep_pos (lenInChars : Bool) {bytes : ℕ} (h : 0 < bytes) :
    0 < lengthStep lenInChars bytes := by
  cases lenInChars with
  | false => exact Int.natCast_pos.mpr h
  | true => exact one_pos

theorem toNat_sub_lt {length step : ℤ} (hlength : length > 0) (hstep : 0 < step) :
    (length - step).toNat < length.toNat := by
  omega

/-- The loop of `dx_read_utf_sequence`, with the units in the buffer so far. -/
def readUtfLoop (lenInChars : Bool) (utflen : ℤ) (buffer : WString) : ReadCall WString :=
  if utflen > 0 then do
    let c ← readByte
    if 0 ≤ c then
      readUtfLoop lenInChars (utflen - 1) (buffer ++ [UInt16.ofNat (octet c)])
    else if octet c &&& 0xE0 = 0xC0 then do
      let tmpCh ← readUtf2 c
      readUtfLoop lenInChars (utflen - lengthStep lenInChars 2) (buffer ++ [tmpCh])
    else if octet c &&& 0xF0 = 0xE0 then do
      let tmpCh ← readUtf3 c
      readUtfLoop lenInChars (utflen - lengthStep lenInChars 3) (buffer ++ [tmpCh])
    else if octet c &&& 0xF8 = 0xF0 then do
      let tmpInt ← readUtf4 c
      let chars ← codePointToUtf16Chars tmpInt buffer.length (utflen - lengthStep lenInChars 4)
      readUtfLoop lenInChars (utflen - lengthStep lenInChars 4) (buffer ++ chars)
    else throw .badUtfDataFormatServer
  else if utflen < 0 then throw .badUtfDataFormatServer
  else return buffer
termination_by utflen.toNat
decreasing_by
  · exact toNat_sub_lt ‹_› one_pos
  all_goals exact toNat_sub_lt ‹_› (lengthStep_pos lenInChars (by norm_num))

/-- `dx_read_utf_sequence`. -/
def readUtfSequence (utflen : ℤ) (lenInChars : Bool) : ReadCall WString :=
  if utflen = 0 then return [] else readUtfLoop lenInChars utflen []

/-- `dx_read_utf_string`; `none` is a null pointer. -/
def readUtfString : ReadCall (Option WString) := do
  let utflen ← readCompactLong
  if utflen < -1 ∨ utflen.toInt > INT_MAX then throw .invalidFuncParamInternal
  else if utflen = -1 then return none
  else return some (← readUtfSequence utflen.toInt false)

/-- A string up to its terminator, behind which `dx_string_length` and `wcscmp` do not look. -/
def terminated (value : WString) : WString := value.takeWhile (· ≠ 0)

/-- `dx_read_utf_string` for a caller that takes the string up to its terminator. -/
def readText : ReadCall (Option WString) := do
  let value ← readUtfString
  return value.map terminated

/-- `dx_read_utf_char`. -/
def readUtfChar : ReadCall ℕ := do
  let c ← readByte
  if 0 ≤ c then return octet c
  else if octet c &&& 0xE0 = 0xC0 then return (← readUtf2 c).toNat
  else if octet c &&& 0xF0 = 0xE0 then return (← readUtf3 c).toNat
  else if octet c &&& 0xF8 = 0xF0 then readUtf4 c
  else throw .badUtfDataFormatServer

/-! ### The bytes of a code point -/

/-- The bytes of a code point. -/
def utfBytes (codePoint : ℕ) : List Int8 := (Utf8.octets codePoint).map castByte

theorem octet_castByte {n : ℕ} (h : n < 256) : octet (castByte n) = n := Nat.mod_eq_of_lt h

/-- A continuation byte has six bits. -/
theorem or_continuation (x : ℕ) : 0x80 ||| (x &&& 0x3F) = 0x80 + x % 2 ^ 6 := by
  have hmask : x &&& 0x3F = x % 2 ^ 6 := Utf8.low_mask x 6
  rw [hmask]
  exact Utf8.or_eq_add 2 (k := 6) (Nat.mod_lt _ (by norm_num))

theorem writes_utfBytes_one {codePoint : ℕ} (h : codePoint ≤ 0x7F) :
    Writes (putByte (castByte codePoint)) (utfBytes codePoint) := by
  rw [utfBytes, Utf8.octets_one h]
  exact writes_putByte _

theorem writes_utfBytes_two {codePoint : ℕ} (hlow : 0x7F < codePoint) (hhigh : codePoint ≤ 0x7FF) :
    Writes (writeUtf2Unchecked codePoint) (utfBytes codePoint) := by
  have hlead : 0xC0 ||| codePoint >>> 6 = 0xC0 + codePoint / 2 ^ 6 := by
    rw [Nat.shiftRight_eq_div_pow]
    exact Utf8.or_eq_add 6 (k := 5) (by omega)
  rw [utfBytes, Utf8.octets_two hlow hhigh, writeUtf2Unchecked, hlead, or_continuation]
  exact (writes_putByte _).bind (writes_putByte _)

theorem writes_utfBytes_three {codePoint : ℕ} (hlow : 0x7FF < codePoint)
    (hhigh : codePoint ≤ 0xFFFF) : Writes (writeUtf3Unchecked codePoint) (utfBytes codePoint) := by
  have hlead : 0xE0 ||| codePoint >>> 12 = 0xE0 + codePoint / 2 ^ 12 := by
    rw [Nat.shiftRight_eq_div_pow]
    exact Utf8.or_eq_add 14 (k := 4) (by omega)
  rw [utfBytes, Utf8.octets_three hlow hhigh, writeUtf3Unchecked, hlead, or_continuation,
    or_continuation, Nat.shiftRight_eq_div_pow]
  exact (writes_putByte _).bind ((writes_putByte _).bind (writes_putByte _))

theorem writes_utfBytes_four {codePoint : ℕ} (hlow : 0xFFFF < codePoint)
    (hhigh : codePoint ≤ 0x10FFFF) :
    Writes (writeUtf4Unchecked codePoint) (utfBytes codePoint) := by
  have hlead : 0xF0 ||| codePoint >>> 18 = 0xF0 + codePoint / 2 ^ 18 := by
    rw [Nat.shiftRight_eq_div_pow]
    exact Utf8.or_eq_add 30 (k := 3) (by omega)
  rw [utfBytes, Utf8.octets_four hlow, writeUtf4Unchecked, hlead, or_continuation,
    or_continuation, or_continuation, Nat.shiftRight_eq_div_pow, Nat.shiftRight_eq_div_pow]
  exact (writes_putByte _).bind ((writes_putByte _).bind
    ((writes_putByte _).bind (writes_putByte _)))

/-! ### Reading the bytes of a code point -/

theorem nonneg_iff_octet (b : Int8) : 0 ≤ b ↔ octet b < 128 := by
  have hb := octet_eq b
  have hmin := b.le_toInt
  have hmax := b.toInt_lt
  rw [Int8.le_iff_toInt_le]
  show 0 ≤ b.toInt ↔ _
  omega

/-- The low bits of a promoted byte are those of the byte. -/
theorem half_toInt16 (b : Int8) : half b.toInt16 % 2 ^ 8 = octet b := by
  have hb := octet_lt b
  have hextend : half b.toInt16 = octet b + if b.toBitVec.msb then 2 ^ 16 - 2 ^ 8 else 0 := by
    show (b.toBitVec.signExtend 16).toNat = _
    rw [BitVec.toNat_signExtend, BitVec.toNat_setWidth_of_le (by norm_num)]
    rfl
  rw [hextend]
  split_ifs <;> omega

theorem half_shortOf (b₁ b₀ : Int8) : half (shortOf b₁ b₀) = octet b₁ * 2 ^ 8 + octet b₀ := by
  have hhigh : half (b₁.toInt16 <<< 8) = octet b₁ * 2 ^ 8 := by
    rw [← half_toInt16 b₁]
    show (half b₁.toInt16 <<< 8) % 2 ^ 16 = _
    rw [Nat.shiftLeft_eq]
    omega
  have hlow : half (b₀.toInt16 &&& 0xFF) = octet b₀ := by
    rw [← half_toInt16 b₀]
    exact Utf8.low_mask _ 8
  have hor : half (shortOf b₁ b₀) = half (b₁.toInt16 <<< 8) ||| half (b₀.toInt16 &&& 0xFF) := rfl
  rw [hor, hhigh, hlow]
  exact Utf8.or_eq_add _ (octet_lt b₀)

theorem reads_readShort (b₁ b₀ : Int8) : Reads readShort [b₁, b₀] (shortOf b₁ b₀) :=
  Reads.validate ((reads_nextByte b₁).bind (reads_nextByte b₀).map) rfl

/-- A call that goes on to return a value. -/
theorem Reads.bind_eq_pure {α β : Type} {x : ReadCall α} {f : α → ReadCall β} {bs : List Int8}
    {a : α} {b : β} (hx : Reads x bs a) (hf : f a = pure b) : Reads (x >>= f) bs b := by
  have hpure : Reads (f a) [] b := by
    rw [hf]
    exact reads_pure b
  have h := hx.bind hpure
  rwa [List.append_nil] at h

/-- A continuation byte passes the test, and gives back its six bits. -/
theorem continuation_masks {x : ℕ} (hx : x < 2 ^ 6) :
    octet (castByte (0x80 + x)) &&& 0xC0 = 0x80 ∧ octet (castByte (0x80 + x)) &&& 0x3F = x := by
  have hmask : (0x80 + x) &&& 0x3F = (0x80 + x) % 2 ^ 6 := Utf8.low_mask _ 6
  rw [octet_castByte (by omega), Utf8.and_0xC0 (by omega), hmask]
  omega

/-- Two continuation bytes in a short. -/
theorem tail_masks {x y : ℕ} (hx : x < 2 ^ 6) (hy : y < 2 ^ 6) :
    half (shortOf (castByte (0x80 + x)) (castByte (0x80 + y))) &&& 0xC0C0 = 0x8080 ∧
      (half (shortOf (castByte (0x80 + x)) (castByte (0x80 + y))) &&& 0x3F00) >>> 2 = x * 2 ^ 6 ∧
      half (shortOf (castByte (0x80 + x)) (castByte (0x80 + y))) &&& 0x3F = y := by
  obtain ⟨htest, hbits⟩ := continuation_masks hx
  obtain ⟨htest', hbits'⟩ := continuation_masks hy
  have hy' := octet_lt (castByte (0x80 + y))
  have hfields : ∀ m n, n < 2 ^ 8 →
      half (shortOf (castByte (0x80 + x)) (castByte (0x80 + y))) &&& (m * 2 ^ 8 + n) =
        (octet (castByte (0x80 + x)) &&& m) * 2 ^ 8 + (octet (castByte (0x80 + y)) &&& n) := by
    intro m n hn
    rw [half_shortOf, Utf8.mask_fields hy' hn]
  have hleads := hfields 0xC0 0xC0 (by norm_num)
  have hhigh := hfields 0x3F 0 (by norm_num)
  have hlow := hfields 0 0x3F (by norm_num)
  rw [htest, htest'] at hleads
  rw [hbits, Nat.and_zero] at hhigh
  rw [hbits', Nat.and_zero] at hlow
  refine ⟨hleads, ?_, ?_⟩
  · have hshift : (x * 2 ^ 8 + 0) >>> 2 = x * 2 ^ 6 := by
      rw [Nat.shiftRight_eq_div_pow]
      omega
    exact (congrArg (· >>> 2) hhigh).trans hshift
  · simpa using hlow

/-- The bits of a lead byte. -/
theorem lead_mask {lead x k : ℕ} (hlead : lead % 2 ^ k = 0) (hx : x < 2 ^ k)
    (hlt : lead + x < 256) : octet (castByte (lead + x)) &&& (2 ^ k - 1) = x := by
  rw [octet_castByte hlt, Utf8.low_mask, Nat.add_mod, hlead, Nat.zero_add, Nat.mod_mod,
    Nat.mod_eq_of_lt hx]

theorem reads_readUtf2 {codePoint : ℕ} (h : codePoint ≤ 0x7FF) :
    Reads (readUtf2 (castByte (0xC0 + codePoint / 2 ^ 6)))
      [castByte (0x80 + codePoint % 2 ^ 6)] (UInt16.ofNat codePoint) := by
  obtain ⟨htest, hbits⟩ := continuation_masks (Nat.mod_lt codePoint (Nat.two_pow_pos 6))
  have hlead : octet (castByte (0xC0 + codePoint / 2 ^ 6)) &&& 0x1F = codePoint / 2 ^ 6 :=
    lead_mask (k := 5) (by norm_num) (by omega) (by omega)
  refine (reads_readByte _).bind_eq_pure ?_
  have hvalue : codePoint / 2 ^ 6 * 2 ^ 6 ||| codePoint % 2 ^ 6 = codePoint := by
    rw [Utf8.or_eq_add _ (Nat.mod_lt _ (Nat.two_pow_pos 6)), Nat.div_add_mod']
  simp only [htest, hbits, hlead, Nat.shiftLeft_eq, hvalue, ne_eq, not_true_eq_false, if_false]

theorem reads_readUtf3 {codePoint : ℕ} (h : codePoint ≤ 0xFFFF) :
    Reads (readUtf3 (castByte (0xE0 + codePoint / 2 ^ 12)))
      [castByte (0x80 + codePoint / 2 ^ 6 % 2 ^ 6), castByte (0x80 + codePoint % 2 ^ 6)]
      (UInt16.ofNat codePoint) := by
  obtain ⟨htest, hhigh, hlow⟩ := tail_masks (Nat.mod_lt (codePoint / 2 ^ 6) (Nat.two_pow_pos 6))
    (Nat.mod_lt codePoint (Nat.two_pow_pos 6))
  have hlead : octet (castByte (0xE0 + codePoint / 2 ^ 12)) &&& 0x0F = codePoint / 2 ^ 12 :=
    lead_mask (k := 4) (by norm_num) (by omega) (by omega)
  refine (reads_readShort _ _).bind_eq_pure ?_
  have hvalue : codePoint / 2 ^ 12 * 2 ^ 12 ||| codePoint / 2 ^ 6 % 2 ^ 6 * 2 ^ 6 |||
      codePoint % 2 ^ 6 = codePoint := by
    rw [Utf8.or_eq_add _ (by omega : codePoint / 2 ^ 6 % 2 ^ 6 * 2 ^ 6 < 2 ^ 12)]
    rw [Utf8.six_more codePoint 6, Utf8.or_eq_add _ (Nat.mod_lt _ (Nat.two_pow_pos 6)), Nat.div_add_mod']
  simp only [htest, hhigh, hlow, hlead, Nat.shiftLeft_eq, hvalue, ne_eq, not_true_eq_false,
    if_false]

theorem reads_readUtf4 {codePoint : ℕ} (h : codePoint ≤ 0x10FFFF) :
    Reads (readUtf4 (castByte (0xF0 + codePoint / 2 ^ 18)))
      [castByte (0x80 + codePoint / 2 ^ 12 % 2 ^ 6), castByte (0x80 + codePoint / 2 ^ 6 % 2 ^ 6),
        castByte (0x80 + codePoint % 2 ^ 6)] codePoint := by
  obtain ⟨htest, hbits⟩ :=
    continuation_masks (Nat.mod_lt (codePoint / 2 ^ 12) (Nat.two_pow_pos 6))
  obtain ⟨htest', hhigh, hlow⟩ := tail_masks (Nat.mod_lt (codePoint / 2 ^ 6) (Nat.two_pow_pos 6))
    (Nat.mod_lt codePoint (Nat.two_pow_pos 6))
  have hlead : octet (castByte (0xF0 + codePoint / 2 ^ 18)) &&& 0x07 = codePoint / 2 ^ 18 :=
    lead_mask (k := 3) (by norm_num) (by omega) (by omega)
  refine (reads_readByte _).bind ((reads_readShort _ _).bind_eq_pure ?_)
  have hvalue : codePoint / 2 ^ 18 * 2 ^ 18 ||| codePoint / 2 ^ 12 % 2 ^ 6 * 2 ^ 12 |||
      codePoint / 2 ^ 6 % 2 ^ 6 * 2 ^ 6 ||| codePoint % 2 ^ 6 = codePoint := by
    rw [Utf8.or_eq_add _ (by omega : codePoint / 2 ^ 12 % 2 ^ 6 * 2 ^ 12 < 2 ^ 18),
      Utf8.six_more codePoint 12,
      Utf8.or_eq_add _ (by omega : codePoint / 2 ^ 6 % 2 ^ 6 * 2 ^ 6 < 2 ^ 12),
      Utf8.six_more codePoint 6,
      Utf8.or_eq_add _ (Nat.mod_lt _ (Nat.two_pow_pos 6)), Nat.div_add_mod']
  simp only [htest, htest', hbits, hhigh, hlow, hlead, Nat.shiftLeft_eq, hvalue, ne_eq,
    not_true_eq_false, or_self, if_false, gt_iff_lt, Nat.not_lt_of_le h]

/-! ### Characters -/

/-- A character of a string: a surrogate pair, or a single code unit. -/
inductive UtfChar
  | unit (c : UInt16)
  | pair (high low : UInt16) (hhigh : isHighSurrogate high) (hlow : isLowSurrogate low)

namespace UtfChar

/-- The code units of a character. -/
def units : UtfChar → WString
  | .unit c => [c]
  | .pair high low _ _ => [high, low]

/-- The code point of a character; that of a single surrogate is the surrogate. -/
def codePoint : UtfChar → ℕ
  | .unit c => c.toNat
  | .pair high low _ _ => surrogatesToCodePoint high low

/-- The bytes of a character. -/
def bytes (char : UtfChar) : List Int8 := utfBytes char.codePoint

end UtfChar

/-- The characters of a string. -/
def utfChars : WString → List UtfChar
  | [] => []
  | [c] => [.unit c]
  | c :: d :: value =>
      if h : isHighSurrogate c ∧ isLowSurrogate d then .pair c d h.1 h.2 :: utfChars value
      else .unit c :: utfChars (d :: value)

/-- The number of bytes of a list of characters. -/
def charsLength (chars : List UtfChar) : ℕ := (chars.flatMap UtfChar.bytes).length

@[simp] theorem charsLength_nil : charsLength [] = 0 := rfl

@[simp] theorem charsLength_cons (char : UtfChar) (chars : List UtfChar) :
    charsLength (char :: chars) = char.bytes.length + charsLength chars := by
  rw [charsLength, List.flatMap_cons, List.length_append, charsLength]

theorem le_of_isHighSurrogate {c : UInt16} (h : isHighSurrogate c) :
    0xD800 ≤ c.toNat ∧ c.toNat ≤ 0xDBFF := by
  unfold isHighSurrogate at h
  rw [Bool.and_eq_true, decide_eq_true_eq, decide_eq_true_eq] at h
  exact h

theorem le_of_isLowSurrogate {c : UInt16} (h : isLowSurrogate c) :
    0xDC00 ≤ c.toNat ∧ c.toNat ≤ 0xDFFF := by
  unfold isLowSurrogate at h
  rw [Bool.and_eq_true, decide_eq_true_eq, decide_eq_true_eq] at h
  exact h

theorem surrogatesToCodePoint_bounds {high low : UInt16} (hhigh : isHighSurrogate high)
    (hlow : isLowSurrogate low) :
    0xFFFF < surrogatesToCodePoint high low ∧ surrogatesToCodePoint high low ≤ 0x10FFFF := by
  have hh := le_of_isHighSurrogate hhigh
  have hl := le_of_isLowSurrogate hlow
  unfold surrogatesToCodePoint
  rw [Nat.shiftLeft_eq]
  omega

/-- A surrogate pair comes back from its code point. -/
theorem codePointToSurrogates_eq {high low : UInt16} (hhigh : isHighSurrogate high)
    (hlow : isLowSurrogate low) :
    codePointToSurrogates (surrogatesToCodePoint high low) = [high, low] := by
  have hh := le_of_isHighSurrogate hhigh
  have hl := le_of_isLowSurrogate hlow
  have hoffset : surrogatesToCodePoint high low - 0x10000 =
      (high.toNat - 0xD800) * 2 ^ 10 + (low.toNat - 0xDC00) := by
    unfold surrogatesToCodePoint
    rw [Nat.shiftLeft_eq]
    omega
  have hhigh' : (surrogatesToCodePoint high low - 0x10000) >>> 10 + 0xD800 = high.toNat := by
    rw [hoffset, Nat.shiftRight_eq_div_pow]
    omega
  have hlow' : ((surrogatesToCodePoint high low - 0x10000) &&& 0x3FF) + 0xDC00 = low.toNat := by
    have hmask : ∀ x : ℕ, x &&& 0x3FF = x % 2 ^ 10 := fun x => Utf8.low_mask x 10
    rw [hmask, hoffset]
    omega
  simp only [codePointToSurrogates, hhigh', hlow', UInt16.ofNat_toNat]

theorem units_utfChars (value : WString) : (utfChars value).flatMap UtfChar.units = value := by
  induction value using utfChars.induct with
  | case1 => rfl
  | case2 c => rfl
  | case3 c d value h ih =>
      rw [utfChars, dif_pos h, List.flatMap_cons, ih]
      rfl
  | case4 c d value h ih =>
      rw [utfChars, dif_neg h, List.flatMap_cons, ih]
      rfl

/-! ### Lengths -/

theorem length_utfBytes_unit (c : UInt16) :
    (utfBytes c.toNat).length = if c ≤ 0x7F then 1 else if c ≤ 0x7FF then 2 else 3 := by
  have hc : c.toNat < 2 ^ 16 := c.toNat_lt
  have hone : c ≤ 0x7F ↔ c.toNat ≤ 0x7F := UInt16.le_iff_toNat_le
  have htwo : c ≤ 0x7FF ↔ c.toNat ≤ 0x7FF := UInt16.le_iff_toNat_le
  rw [utfBytes, List.length_map]
  split_ifs with h₁ h₂
  · rw [Utf8.octets_one (hone.mp h₁)]
    rfl
  · rw [Utf8.octets_two (Nat.lt_of_not_le (hone.not.mp h₁)) (htwo.mp h₂)]
    rfl
  · rw [Utf8.octets_three (Nat.lt_of_not_le (htwo.not.mp h₂)) (by omega)]
    rfl

theorem length_utfBytes_pair {high low : UInt16} (hhigh : isHighSurrogate high)
    (hlow : isLowSurrogate low) : (utfBytes (surrogatesToCodePoint high low)).length = 4 := by
  rw [utfBytes, List.length_map,
    Utf8.octets_four (surrogatesToCodePoint_bounds hhigh hlow).1]
  rfl

/-- A high surrogate is neither of the short kinds. -/
theorem not_le_of_isHighSurrogate {c : UInt16} (h : isHighSurrogate c) :
    ¬ c ≤ 0x7F ∧ ¬ c ≤ 0x7FF := by
  have hc := (le_of_isHighSurrogate h).1
  rw [UInt16.le_iff_toNat_le, UInt16.le_iff_toNat_le]
  show ¬ c.toNat ≤ 0x7F ∧ ¬ c.toNat ≤ 0x7FF
  omega

/-- The first loop of `dx_write_utf_string` counts the bytes of the characters. -/
theorem utfLength_eq (value : WString) : utfLength value = charsLength (utfChars value) := by
  induction value using utfChars.induct with
  | case1 => rfl
  | case2 c =>
      rw [utfChars, charsLength_cons, charsLength_nil, add_zero, utfLength]
      exact (length_utfBytes_unit c).symm
  | case3 c d value h ih =>
      obtain ⟨hone, htwo⟩ := not_le_of_isHighSurrogate h.1
      rw [utfChars, dif_pos h, charsLength_cons, utfLength, if_neg hone, if_neg htwo,
        if_pos (Bool.and_eq_true_iff.mpr h), ih]
      exact congrArg (· + _) (length_utfBytes_pair h.1 h.2).symm
  | case4 c d value h ih =>
      have hpair : ¬ (isHighSurrogate c && isLowSurrogate d) = true := by
        rwa [Bool.and_eq_true_iff]
      have hunit : (UtfChar.unit c).bytes.length =
          if c ≤ 0x7F then 1 else if c ≤ 0x7FF then 2 else 3 := length_utfBytes_unit c
      rw [utfChars, dif_neg h, charsLength_cons, utfLength, ih, hunit]
      split_ifs <;> rfl

/-- A character has no more code units than bytes. -/
theorem length_units_le (char : UtfChar) : char.units.length ≤ char.bytes.length := by
  cases char with
  | unit c =>
      show 1 ≤ (utfBytes c.toNat).length
      rw [length_utfBytes_unit]
      split_ifs <;> norm_num
  | pair high low hhigh hlow =>
      show 2 ≤ (utfBytes (surrogatesToCodePoint high low)).length
      rw [length_utfBytes_pair hhigh hlow]
      norm_num

/-- A string has no more code units than bytes. -/
theorem length_le_utfLength (value : WString) : value.length ≤ utfLength value := by
  have hchars : ∀ chars : List UtfChar,
      (chars.flatMap UtfChar.units).length ≤ charsLength chars := by
    intro chars
    induction chars with
    | nil => exact le_rfl
    | cons char chars ih =>
        rw [List.flatMap_cons, List.length_append, charsLength_cons]
        exact Nat.add_le_add (length_units_le char) ih
  have h := hchars (utfChars value)
  rwa [units_utfChars, ← utfLength_eq] at h

end DxFeed.BufferedIO
