import DxFeed.BufferedIO.Common

/-!
# The input stream of `BufferedInput.c`

* `readByte`, `readUnsignedByte`, `readUnsignedShort`, `readInt`;
* `readCompactLong`, `readCompactInt`;
* `Reads x bs a`: in front of the bytes `bs`, `x` consumes exactly them and returns `a`.

Output arguments are never null.  A read outside of the buffer, which only a wrapped
capacity test lets through, returns 0.
-/

namespace DxFeed.BufferedIO

open Call FixedWidth PrefixCode

/-- `dx_buffered_input_connection_context_t`; `none` is a null buffer. -/
structure InputContext where
  inBuffer : Option (List Int8)
  inBufferLimit : ℕ
  currentInBufferPosition : ℕ
  deriving DecidableEq, Repr

namespace InputContext

variable (context : InputContext)

def buffer : List Int8 :=
  context.inBuffer.getD []

def inBufferLength : ℕ :=
  context.buffer.length

end InputContext

abbrev ReadCall := Call ErrorCode InputContext

/-- `dx_validate_buffer_and_value`. -/
def validateBuffer (valueSize : ℕ) : ReadCall Unit := do
  let context ← get
  if context.inBuffer.isNone then
    throw .bufferNotInitialized
  else if !isCapacityEnough context.currentInBufferPosition valueSize context.inBufferLength then
    throw .bufferUnderflow

/-- `in_buffer[current_in_buffer_position++]`. -/
def nextByte : ReadCall Int8 := do
  let context ← get
  set { context with currentInBufferPosition := context.currentInBufferPosition + 1 }
  return context.buffer.getD context.currentInBufferPosition 0

/-- `dx_read_byte`. -/
def readByte : ReadCall Int8 := do
  validateBuffer 1
  nextByte

/-- The value that `dx_read_unsigned_byte` makes of a byte. -/
def unsignedByte (b : Int8) : UInt32 :=
  b.toInt32.toUInt32 &&& 0xFF

/-- `dx_read_unsigned_byte`. -/
def readUnsignedByte : ReadCall UInt32 := do
  validateBuffer 1
  let b ← nextByte
  return unsignedByte b

/-- The value that `dx_read_unsigned_short` makes of two bytes. -/
def unsignedShort (b₁ b₀ : Int8) : UInt32 :=
  (b₁.toInt32 &&& 0xFF).toUInt32 <<< 8 ||| (b₀.toInt32.toUInt32 &&& 0xFF)

/-- `dx_read_unsigned_short`. -/
def readUnsignedShort : ReadCall UInt32 := do
  validateBuffer 2
  let b₁ ← nextByte
  let b₀ ← nextByte
  return unsignedShort b₁ b₀

/-- The value that `dx_read_int` makes of four bytes. -/
def intOf (b₃ b₂ b₁ b₀ : Int8) : Int32 :=
  (b₃.toInt32 &&& 0xFF) <<< 24 ||| (b₂.toInt32 &&& 0xFF) <<< 16 |||
    (b₁.toInt32 &&& 0xFF) <<< 8 ||| (b₀.toInt32 &&& 0xFF)

/-- `dx_read_int`. -/
def readInt : ReadCall Int32 := do
  validateBuffer 4
  let b₃ ← nextByte
  let b₂ ← nextByte
  let b₁ ← nextByte
  let b₀ ← nextByte
  return intOf b₃ b₂ b₁ b₀

/-- The high word of `dx_read_compact_long`, from its first byte `n` of at least `0xF0`. -/
def readCompactHigh (n : Int32) : ReadCall Int32 := do
  if n < 0xF8 then
    return (n <<< 29) >>> 29
  else if n < 0xFC then
    let tmpByte ← readUnsignedByte
    return ((n <<< 8 ||| tmpByte.toInt32) <<< 22) >>> 22
  else if n < 0xFE then
    let tmpShort ← readUnsignedShort
    return ((n <<< 16 ||| tmpShort.toInt32) <<< 15) >>> 15
  else if n < 0xFF then
    let tmpByte ← readByte
    let tmpShort ← readUnsignedShort
    return tmpByte.toInt32 <<< 16 ||| tmpShort.toInt32
  else
    readInt

/-- `dx_read_compact_long` after its first byte `n`. -/
def readCompactLongFrom (n : Int32) : ReadCall Int64 := do
  if n < 0x80 then
    return ((n <<< 25) >>> 25).toInt64
  else if n < 0xC0 then
    -- `tmp_byte` is unsigned here, and so are both shifts
    let tmpByte ← readUnsignedByte
    return ((((n <<< 8).toUInt32 ||| tmpByte) <<< 18) >>> 18).toUInt64.toInt64
  else if n < 0xE0 then
    let tmpShort ← readUnsignedShort
    return (((n <<< 16 ||| tmpShort.toInt32) <<< 11) >>> 11).toInt64
  else if n < 0xF0 then
    let tmpByte ← readUnsignedByte
    let tmpShort ← readUnsignedShort
    return (((n <<< 24 ||| tmpByte.toInt32 <<< 16 ||| tmpShort.toInt32) <<< 4) >>> 4).toInt64
  else
    let high ← readCompactHigh n
    let tmpInt ← readInt
    return high.toInt64 <<< 32 ||| (tmpInt.toInt64 &&& 0xFFFFFFFF)

/-- `dx_read_compact_long`. -/
def readCompactLong : ReadCall Int64 := do
  let tempUintByte ← readUnsignedByte
  readCompactLongFrom tempUintByte.toInt32

/-- `dx_move_buffer_pos` forward. -/
def moveBufferPos (offset : ℕ) : ReadCall Unit :=
  modify fun context => { context with
    currentInBufferPosition := context.currentInBufferPosition +
      min offset (context.inBufferLength - context.currentInBufferPosition) }

/-- The loop of `dx_read_compact_int` for numbers that are out of range, from the first byte `n`;
its low bits are at most four ones. -/
def skipOutOfRange : ℕ → Int32 → ReadCall Unit
  | 0, _ => pure ()
  | k + 1, n =>
      if n <<< 1 &&& 0x10 ≠ 0 then do
        moveBufferPos 1
        skipOutOfRange k (n <<< 1)
      else pure ()

/-- `dx_read_compact_int`. -/
def readCompactInt : ReadCall Int32 := do
  let tempUintByte ← readUnsignedByte
  let n := tempUintByte.toInt32
  if n < 0x80 then
    return (n <<< 25) >>> 25
  else if n < 0xC0 then
    let m ← readUnsignedByte
    return ((n <<< 8 ||| m.toInt32) <<< 18) >>> 18
  else if n < 0xE0 then
    let m ← readUnsignedShort
    return ((n <<< 16 ||| m.toInt32) <<< 11) >>> 11
  else if n < 0xF0 then
    let tmpByte ← readUnsignedByte
    let tmpShort ← readUnsignedShort
    return ((n <<< 24 ||| tmpByte.toInt32 <<< 16 ||| tmpShort.toInt32) <<< 4) >>> 4
  else
    skipOutOfRange 4 n
    readInt

/-! ### Reading in place -/

/-- The stream that has consumed `pre` and has `rest` left in its buffer. -/
def inputAt (pre rest : List Int8) (limit : ℕ) : InputContext :=
  ⟨some (pre ++ rest), limit, pre.length⟩

/-- In front of the bytes `bs`, wherever they stand, the call consumes them and returns `a`. -/
def Reads {α : Type} (x : ReadCall α) (bs : List Int8) (a : α) : Prop :=
  ∀ pre post limit, (pre ++ (bs ++ post)).length ≤ INT_MAX →
    exec x (inputAt pre (bs ++ post) limit) = (.ok a, inputAt (pre ++ bs) post limit)

section Reads

variable {α β : Type}

theorem reads_pure (a : α) : Reads (pure a) [] a := by
  intro pre post limit _
  simp

theorem Reads.bind {x : ReadCall α} {f : α → ReadCall β} {bs cs : List Int8} {a : α} {b : β}
    (hx : Reads x bs a) (hf : Reads (f a) cs b) : Reads (x >>= f) (bs ++ cs) b := by
  intro pre post limit hlen
  have hx' := hx pre (cs ++ post) limit (by simpa using hlen)
  have hf' := hf (pre ++ bs) post limit (by simpa using hlen)
  rw [List.append_assoc, exec_bind_ok hx', hf', List.append_assoc]

/-- A call that ends by returning a function of what it read. -/
theorem Reads.map {x : ReadCall α} {f : α → β} {bs : List Int8} {a : α} (hx : Reads x bs a) :
    Reads (do return f (← x)) bs (f a) := by
  have h := Reads.bind (f := fun a => pure (f a)) hx (reads_pure (f a))
  rwa [List.append_nil] at h

theorem exec_validateBuffer {pre rest : List Int8} {limit n : ℕ}
    (hlen : (pre ++ rest).length ≤ INT_MAX) (hn : n ≤ rest.length) :
    exec (validateBuffer n) (inputAt pre rest limit) = (.ok (), inputAt pre rest limit) := by
  rw [List.length_append] at hlen
  have hcap := isCapacityEnough_eq pre.length n hlen (by omega)
  unfold validateBuffer
  rw [exec_bind_ok (exec_get _)]
  simp [inputAt, InputContext.inBufferLength, InputContext.buffer, hcap, hn]

theorem reads_nextByte (b : Int8) : Reads nextByte [b] b := by
  intro pre post limit _
  unfold nextByte
  rw [exec_bind_ok (exec_get _), exec_bind_ok (exec_set _ _)]
  simp [inputAt, InputContext.buffer]

/-- A capacity test in front of a call that consumes what it asks for changes nothing. -/
theorem Reads.validate {x : ReadCall α} {bs : List Int8} {a : α} {n : ℕ} (hx : Reads x bs a)
    (hn : n = bs.length) : Reads (do validateBuffer n; x) bs a := by
  intro pre post limit hlen
  rw [exec_bind_ok (exec_validateBuffer hlen (by simp [hn]))]
  exact hx pre post limit hlen

end Reads

/-! ### The primitive readers -/

theorem reads_readByte (b : Int8) : Reads readByte [b] b :=
  (reads_nextByte b).validate rfl

theorem reads_readUnsignedByte (b : Int8) : Reads readUnsignedByte [b] (unsignedByte b) :=
  (reads_nextByte b).map.validate rfl

theorem reads_readUnsignedShort (b₁ b₀ : Int8) :
    Reads readUnsignedShort [b₁, b₀] (unsignedShort b₁ b₀) :=
  Reads.validate ((reads_nextByte b₁).bind (reads_nextByte b₀).map) rfl

theorem reads_readInt (b₃ b₂ b₁ b₀ : Int8) :
    Reads readInt [b₃, b₂, b₁, b₀] (intOf b₃ b₂ b₁ b₀) :=
  Reads.validate ((reads_nextByte b₃).bind ((reads_nextByte b₂).bind
    ((reads_nextByte b₁).bind (reads_nextByte b₀).map))) rfl

/-- The number that a list of bytes denotes. -/
def bytesValue (bs : List Int8) : ℕ :=
  beValue (bs.map octet)

theorem bytesValue_cons (b : Int8) (bs : List Int8) :
    bytesValue (b :: bs) = octet b * 256 ^ bs.length + bytesValue bs := by
  rw [bytesValue, List.map_cons, beValue_cons, List.length_map]
  rfl

theorem bytesValue_append (bs bs' : List Int8) :
    bytesValue (bs ++ bs') = bytesValue bs * 256 ^ bs'.length + bytesValue bs' := by
  rw [bytesValue, List.map_append, beValue_append, List.length_map]
  rfl

theorem bytesValue_lt {bs : List Int8} {n : ℕ} (hlen : bs.length = n) :
    bytesValue bs < 256 ^ n := by
  have h : ∀ o ∈ bs.map octet, o < 256 := by
    intro o ho
    obtain ⟨b, _, rfl⟩ := List.mem_map.mp ho
    exact octet_lt b
  rw [← hlen, ← bs.length_map octet]
  exact beValue_lt h

@[simp] theorem bytesValue_singleton (b : Int8) : bytesValue [b] = octet b := by
  simp [bytesValue, beValue]

theorem word_unsignedByte (b : Int8) : word (unsignedByte b).toInt32 = octet b :=
  word_and_0xFF b

/-- The byte `b`, moved to the position of weight `2 ^ k`. -/
private theorem word_shiftLeft_and (b : Int8) (s : Int32) {k : ℕ}
    (hs : (s.toBitVec.smod 32).toNat = k) (hk : k ≤ 24) :
    word ((b.toInt32 &&& 0xFF) <<< s) = octet b * 2 ^ k := by
  have hb := octet_lt b
  rw [word_shiftLeft _ s hs, word_and_0xFF]
  rw [word_and_0xFF]
  calc octet b * 2 ^ k ≤ 255 * 2 ^ 24 := Nat.mul_le_mul (by omega) (Nat.pow_le_pow_right (by omega) hk)
    _ < 2 ^ 32 := by norm_num

theorem word_unsignedShort (b₁ b₀ : Int8) :
    word (unsignedShort b₁ b₀).toInt32 = bytesValue [b₁, b₀] := by
  have h₀ := octet_lt b₀
  have hw₁ := word_shiftLeft_and b₁ 8 (k := 8) rfl (by omega)
  have hw₀ := word_and_0xFF b₀
  have hor := word_or_mask _ (b₀.toInt32 &&& 0xFF) _ 8 hw₁ (Nat.mul_mod_left _ _) (by omega)
  show word ((b₁.toInt32 &&& 0xFF) <<< 8 ||| (b₀.toInt32 &&& 0xFF)) = _
  rw [hor, hw₀, bytesValue_cons, bytesValue_singleton]
  rfl

theorem word_intOf (b₃ b₂ b₁ b₀ : Int8) :
    word (intOf b₃ b₂ b₁ b₀) = bytesValue [b₃, b₂, b₁, b₀] := by
  have h₂ := octet_lt b₂
  have h₁ := octet_lt b₁
  have h₀ := octet_lt b₀
  have hw₃ := word_shiftLeft_and b₃ 24 (k := 24) rfl (by omega)
  have hw₂ := word_shiftLeft_and b₂ 16 (k := 16) rfl (by omega)
  have hw₁ := word_shiftLeft_and b₁ 8 (k := 8) rfl (by omega)
  have hw₀ := word_and_0xFF b₀
  have hor₃ := word_or_mask _ ((b₂.toInt32 &&& 0xFF) <<< 16) _ 24 hw₃ (Nat.mul_mod_left _ _)
    (by omega)
  rw [hw₂] at hor₃
  have hor₂ := word_or_mask _ ((b₁.toInt32 &&& 0xFF) <<< 8) _ 16 hor₃ (by omega) (by omega)
  rw [hw₁] at hor₂
  have hor₁ := word_or_mask _ (b₀.toInt32 &&& 0xFF) _ 8 hor₂ (by omega) (by omega)
  rw [hw₀] at hor₁
  rw [intOf, hor₁]
  simp [bytesValue, beValue]
  ring

/-! ### The reader of compact numbers -/

/-- The comparison of a first byte with a bound of the source. -/
theorem firstByte_lt_iff (b : Int8) (c : Int32) {m : ℕ} (hm : word c = m)
    (hc : m < 2 ^ 31) : (unsignedByte b).toInt32 < c ↔ octet b < m := by
  have hb := octet_lt b
  have hw := word_unsignedByte b
  rw [lt_iff_word c (by omega) (by omega), hw, hm]

/-- `(n << 8 | tmp_byte)` for the bytes `b` and `b₁`. -/
theorem word_byte_byte (b b₁ : Int8) :
    word ((unsignedByte b).toInt32 <<< 8 ||| (unsignedByte b₁).toInt32) = bytesValue [b, b₁] := by
  have hb := octet_lt b
  have hb₁ := octet_lt b₁
  have hw := word_unsignedByte b
  have hw₁ := word_unsignedByte b₁
  rw [word_shiftLeft_or _ _ 8 (k := 8) rfl (by omega) (by omega), hw, hw₁, bytesValue_cons b]
  simp

/-- `(n << 16 | tmp_short)` for the bytes `b`, `b₁` and `b₀`. -/
theorem word_byte_short (b b₁ b₀ : Int8) :
    word ((unsignedByte b).toInt32 <<< 16 ||| (unsignedShort b₁ b₀).toInt32) =
      bytesValue [b, b₁, b₀] := by
  have hb := octet_lt b
  have hw := word_unsignedByte b
  have hw₁ := word_unsignedShort b₁ b₀
  have hlt : bytesValue [b₁, b₀] < 256 ^ 2 := bytesValue_lt rfl
  rw [word_shiftLeft_or _ _ 16 (k := 16) rfl (by omega) (by omega), hw, hw₁, bytesValue_cons b]
  simp

/-- `(n << 24 | tmp_byte << 16 | tmp_short)` for the bytes `b`, `b₂`, `b₁` and `b₀`. -/
theorem word_byte_byte_short (b b₂ b₁ b₀ : Int8) :
    word ((unsignedByte b).toInt32 <<< 24 ||| (unsignedByte b₂).toInt32 <<< 16 |||
      (unsignedShort b₁ b₀).toInt32) = bytesValue [b, b₂, b₁, b₀] := by
  have hb := octet_lt b
  have hb₂ := octet_lt b₂
  have hw := word_unsignedByte b
  have hw₂ := word_unsignedByte b₂
  have hs := word_unsignedShort b₁ b₀
  have hlt : bytesValue [b₁, b₀] < 256 ^ 2 := bytesValue_lt rfl
  have hshift := word_shiftLeft (unsignedByte b).toInt32 24 (k := 24) rfl (by omega)
  have hshift₂ := word_shiftLeft (unsignedByte b₂).toInt32 16 (k := 16) rfl (by omega)
  have hor := word_or_mask _ ((unsignedByte b₂).toInt32 <<< 16) _ 24 hshift (by omega) (by omega)
  rw [word_or_mask _ (unsignedShort b₁ b₀).toInt32 _ 16 hor (by omega) (by omega), hshift₂, hw,
    hw₂, hs, bytesValue_cons b, bytesValue_cons b₂]
  simp
  omega

/-- `(tmp_byte << 16 | tmp_short)` for a signed byte `b₂`: the low 24 bits of the bytes. -/
private theorem toInt_byte_short (b b₂ b₁ b₀ : Int8) :
    (b₂.toInt32 <<< 16 ||| (unsignedShort b₁ b₀).toInt32).toInt =
      (bytesValue [b, b₂, b₁, b₀] : ℤ).bmod (2 ^ 24) := by
  have hlt : bytesValue [b₁, b₀] < 256 ^ 2 := bytesValue_lt rfl
  have hs := word_unsignedShort b₁ b₀
  have hword := word_eq b₂.toInt32
  have hoctet := octet_eq b₂
  have hmin := b₂.le_toInt
  have hmax := b₂.toInt_lt
  have hshift := word_shiftLeft_mod b₂.toInt32 16 (k := 16) rfl
  rw [Int8.toInt_toInt32] at hword
  -- `c` is 1 for a negative byte and 0 for the others
  obtain ⟨c, hc, hc'⟩ : ∃ c : ℤ, (octet b₂ : ℤ) = b₂.toInt + 2 ^ 8 * c ∧
      ((word b₂.toInt32 * 2 ^ 16 % 2 ^ 32 : ℕ) : ℤ) = b₂.toInt * 2 ^ 16 + 2 ^ 32 * c := by
    rcases lt_or_ge b₂.toInt 0 with hneg | hpos
    · exact ⟨1, by omega, by omega⟩
    · exact ⟨0, by omega, by omega⟩
  rw [toInt_eq_bmod, word_or_mask _ _ _ 16 hshift (by omega) (by omega), hs, bytesValue_cons b,
    bytesValue_cons b₂]
  rw [bmod_eq_of_eq_add (x := b₂.toInt * 2 ^ 16 + bytesValue [b₁, b₀]) c,
    bmod_eq_of_eq_add (x := b₂.toInt * 2 ^ 16 + bytesValue [b₁, b₀]) (octet b + c)]
  all_goals
    simp
    omega

theorem reads_readCompactHigh (b : Int8) (bs : List Int8) (k : ℕ) (hk : k ≤ 4)
    (hclass : classOf (octet b) = k + 4) (hlen : bs.length = k) :
    ∃ high, Reads (readCompactHigh (unsignedByte b).toInt32) bs high ∧
      high.toInt = (bytesValue (b :: bs) : ℤ).bmod (2 ^ (width (k + 4) - 32)) := by
  have hlow := le_of_classOf hclass
  have hhigh := lt_of_classOf hclass
  unfold readCompactHigh
  simp only [firstByte_lt_iff b 0xF8 (m := 0xF8) rfl (by norm_num),
    firstByte_lt_iff b 0xFC (m := 0xFC) rfl (by norm_num),
    firstByte_lt_iff b 0xFE (m := 0xFE) rfl (by norm_num),
    firstByte_lt_iff b 0xFF (m := 0xFF) rfl (by norm_num)]
  interval_cases k <;> norm_num at hlow hhigh
  · obtain rfl := List.length_eq_zero_iff.mp hlen
    rw [if_pos (by omega)]
    refine ⟨_, reads_pure _, ?_⟩
    rw [toInt_signExtend _ 29 (k := 29) rfl (by norm_num), word_unsignedByte, bytesValue_singleton]
    rfl
  · obtain ⟨b₁, rfl⟩ := List.length_eq_one_iff.mp hlen
    rw [if_neg (by omega), if_pos (by omega)]
    refine ⟨_, (reads_readUnsignedByte b₁).map, ?_⟩
    rw [toInt_signExtend _ 22 (k := 22) rfl (by norm_num), word_byte_byte]
    rfl
  · obtain ⟨b₁, b₀, rfl⟩ := List.length_eq_two.mp hlen
    rw [if_neg (by omega), if_neg (by omega), if_pos (by omega)]
    refine ⟨_, (reads_readUnsignedShort b₁ b₀).map, ?_⟩
    rw [toInt_signExtend _ 15 (k := 15) rfl (by norm_num), word_byte_short]
    rfl
  · obtain ⟨b₂, b₁, b₀, rfl⟩ := List.length_eq_three.mp hlen
    rw [if_neg (by omega), if_neg (by omega), if_neg (by omega), if_pos (by omega)]
    refine ⟨_, (reads_readByte b₂).bind (reads_readUnsignedShort b₁ b₀).map, ?_⟩
    exact toInt_byte_short b b₂ b₁ b₀
  · obtain ⟨b₃, l, rfl⟩ := List.exists_cons_of_length_eq_add_one hlen
    obtain ⟨b₂, b₁, b₀, rfl⟩ := List.length_eq_three.mp (Nat.succ.inj hlen)
    rw [if_neg (by omega), if_neg (by omega), if_neg (by omega), if_neg (by omega)]
    refine ⟨_, reads_readInt b₃ b₂ b₁ b₀, ?_⟩
    rw [toInt_eq_bmod, word_intOf, bytesValue_cons b]
    simp only [List.length_cons, List.length_nil, Int.bmod_def, width]
    norm_num

/-- The number that `dx_read_compact_long` makes of the bytes of a class; the two-byte form
is read without its sign. -/
def longNumber (k : ℕ) (bs : List Int8) : ℤ :=
  if k = 1 then bytesValue bs % 2 ^ width k else numberOf k (bs.map octet)

theorem longNumber_of_ne {k : ℕ} (h : k ≠ 1) (bs : List Int8) :
    longNumber k bs = (bytesValue bs : ℤ).bmod (2 ^ width k) :=
  if_neg h

theorem toInt_unsigned (x : UInt32) : x.toUInt64.toInt64.toInt = x.toNat := by
  have hx := x.toNat_lt
  show (x.toBitVec.setWidth 64).toInt = x.toNat
  rw [BitVec.toInt_eq_toNat_of_lt]
  · simp
  · simp
    omega

theorem reads_readCompactLongFrom_short (b : Int8) (bs : List Int8) (k : ℕ) (hk : k ≤ 3)
    (hclass : classOf (octet b) = k) (hlen : bs.length = k) :
    ∃ v, Reads (readCompactLongFrom (unsignedByte b).toInt32) bs v ∧
      v.toInt = longNumber k (b :: bs) := by
  have hlow := le_of_classOf hclass
  have hhigh := lt_of_classOf hclass
  unfold readCompactLongFrom
  simp only [firstByte_lt_iff b 0x80 (m := 0x80) rfl (by norm_num),
    firstByte_lt_iff b 0xC0 (m := 0xC0) rfl (by norm_num),
    firstByte_lt_iff b 0xE0 (m := 0xE0) rfl (by norm_num),
    firstByte_lt_iff b 0xF0 (m := 0xF0) rfl (by norm_num)]
  interval_cases k <;> norm_num at hlow hhigh
  · obtain rfl := List.length_eq_zero_iff.mp hlen
    rw [if_pos (by omega)]
    refine ⟨_, reads_pure _, ?_⟩
    rw [Int32.toInt_toInt64, toInt_signExtend _ 25 (k := 25) rfl (by norm_num), word_unsignedByte,
      longNumber_of_ne (by norm_num), bytesValue_singleton]
    rfl
  · obtain ⟨b₁, rfl⟩ := List.length_eq_one_iff.mp hlen
    rw [if_neg (by omega), if_pos (by omega)]
    refine ⟨_, (reads_readUnsignedByte b₁).map, ?_⟩
    have hval := toNat_shiftLeft_ushiftRight (k := 18)
      ((unsignedByte b).toInt32 <<< 8 ||| (unsignedByte b₁).toInt32).toBitVec (by norm_num)
    have hword : (((unsignedByte b).toInt32 <<< 8 ||| (unsignedByte b₁).toInt32).toBitVec).toNat =
      bytesValue [b, b₁] := word_byte_byte b b₁
    rw [toInt_unsigned, longNumber, if_pos rfl]
    rw [hword] at hval
    exact_mod_cast hval
  · obtain ⟨b₁, b₀, rfl⟩ := List.length_eq_two.mp hlen
    rw [if_neg (by omega), if_neg (by omega), if_pos (by omega)]
    refine ⟨_, (reads_readUnsignedShort b₁ b₀).map, ?_⟩
    rw [Int32.toInt_toInt64, toInt_signExtend _ 11 (k := 11) rfl (by norm_num), word_byte_short,
      longNumber_of_ne (by norm_num)]
    rfl
  · obtain ⟨b₂, b₁, b₀, rfl⟩ := List.length_eq_three.mp hlen
    rw [if_neg (by omega), if_neg (by omega), if_neg (by omega), if_pos (by omega)]
    refine ⟨_, (reads_readUnsignedByte b₂).bind (reads_readUnsignedShort b₁ b₀).map, ?_⟩
    rw [Int32.toInt_toInt64, toInt_signExtend _ 4 (k := 4) rfl (by norm_num),
      word_byte_byte_short, longNumber_of_ne (by norm_num)]
    rfl

/-- From class 4 on the high word comes before the low word. -/
theorem reads_readCompactLongFrom_long (b : Int8) (hs ls : List Int8) (k : ℕ) (hk : k ≤ 4)
    (hclass : classOf (octet b) = k + 4) (hhs : hs.length = k) (hls : ls.length = 4) :
    ∃ v, Reads (readCompactLongFrom (unsignedByte b).toInt32) (hs ++ ls) v ∧
      v.toInt = longNumber (k + 4) (b :: (hs ++ ls)) := by
  have hlow := le_of_classOf hclass
  obtain ⟨high, hreads, hhigh⟩ := reads_readCompactHigh b hs k hk hclass hhs
  obtain ⟨b₃, l, rfl⟩ := List.exists_cons_of_length_eq_add_one hls
  obtain ⟨b₂, b₁, b₀, rfl⟩ := List.length_eq_three.mp (Nat.succ.inj hls)
  have hlt : bytesValue [b₃, b₂, b₁, b₀] < 256 ^ 4 := bytesValue_lt rfl
  have hoctet : 0xF0 ≤ octet b := by interval_cases k <;> norm_num at hlow <;> omega
  unfold readCompactLongFrom
  simp only [firstByte_lt_iff b 0x80 (m := 0x80) rfl (by norm_num),
    firstByte_lt_iff b 0xC0 (m := 0xC0) rfl (by norm_num),
    firstByte_lt_iff b 0xE0 (m := 0xE0) rfl (by norm_num),
    firstByte_lt_iff b 0xF0 (m := 0xF0) rfl (by norm_num)]
  rw [if_neg (by omega), if_neg (by omega), if_neg (by omega), if_neg (by omega)]
  refine ⟨_, hreads.bind (reads_readInt b₃ b₂ b₁ b₀).map, ?_⟩
  rw [toInt_high_or_low, word_intOf, hhigh, longNumber_of_ne (by omega), ← List.cons_append,
    bytesValue_append]
  have hsplit : 2 ^ width (k + 4) = 2 ^ (width (k + 4) - 32) * 256 ^ 4 := by
    interval_cases k <;> norm_num [width]
  have h2 : 2 ∣ 2 ^ (width (k + 4) - 32) := by
    interval_cases k <;> norm_num [width]
  have hadd := mul_add_bmod_mul (bytesValue (b :: hs)) (bytesValue [b₃, b₂, b₁, b₀]) (c := 256 ^ 4)
    (Nat.two_pow_pos _) h2 (Nat.cast_nonneg _) (Nat.cast_lt.mpr hlt)
  rw [hsplit, show [b₃, b₂, b₁, b₀].length = 4 from rfl, Nat.cast_add, Nat.cast_mul, hadd]
  norm_num

/-- `dx_read_compact_long` in front of the bytes of a class. -/
theorem reads_readCompactLong (b : Int8) (bs : List Int8) (hlen : bs.length = classOf (octet b)) :
    ∃ v, Reads readCompactLong (b :: bs) v ∧
      v.toInt = longNumber (classOf (octet b)) (b :: bs) := by
  have hle := classOf_le (octet b)
  rcases le_or_gt (classOf (octet b)) 3 with hk | hk
  · obtain ⟨v, hreads, hv⟩ := reads_readCompactLongFrom_short b bs _ hk rfl hlen
    exact ⟨v, (reads_readUnsignedByte b).bind hreads, hv⟩
  · obtain ⟨k, hclass⟩ := Nat.exists_eq_add_of_le' hk
    obtain ⟨v, hreads, hv⟩ := reads_readCompactLongFrom_long b (bs.take k) (bs.drop k) k (by omega)
      hclass (by rw [List.length_take]; omega) (by rw [List.length_drop]; omega)
    rw [List.take_append_drop] at hreads hv
    exact ⟨v, (reads_readUnsignedByte b).bind hreads, by rw [hclass]; exact hv⟩

/-- The bytes of a class are read as the number they stand for. -/
theorem reads_of_longNumber {b : Int8} {bs : List Int8} {value : Int64}
    (hlen : bs.length = classOf (octet b))
    (hvalue : longNumber (classOf (octet b)) (b :: bs) = value.toInt) :
    Reads readCompactLong (b :: bs) value := by
  obtain ⟨v, hreads, hv⟩ := reads_readCompactLong b bs hlen
  obtain rfl : v = value := Int64.toInt_inj.mp (hv.trans hvalue)
  exact hreads

end DxFeed.BufferedIO
