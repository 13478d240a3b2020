import DxFeed.BufferedIO.Compact
import DxFeed.BufferedIO.Reach

/-!
# Compact numbers of 32 bits

* `readCompactIntFrom`: `dx_read_compact_int` behind its first byte;
* `exec_skipOutOfRange`: the bytes that are skipped in front of a number that is out of range;
* `compactIntRoundTrip`: an `int` is written in as many bytes as its compact size, and read back;
* `readersAgree_iff`: where the readers of an `int` and of a `long` agree.
-/

namespace DxFeed.BufferedIO

open Call FixedWidth PrefixCode

/-- `dx_read_compact_int` behind its first byte `n`. -/
def readCompactIntFrom (n : Int32) : ReadCall Int32 := do
  if n < 0x80 then
    return (n <<< 25) >>> 25
  else if n < 0xC0 then
    let m ← readUnsignedByte
    return ((n <<< 8 ||| m.toInt32) <<< 18) >>> 18
  else if n < 0xE0 then
    let m ← readUnsignedShort
    return ((n <<< 16 ||| m.toInt32) <<< 11) >>> 11
  else if n < 0xF0 then
    let tmpByte ← readUnsignedByte
    let tmpShort ← readUnsignedShort
    return ((n <<< 24 ||| tmpByte.toInt32 <<< 16 ||| tmpShort.toInt32) <<< 4) >>> 4
  else
    skipOutOfRange 4 n
    readInt

theorem readCompactInt_eq :
    readCompactInt = (do
      let tempUintByte ← readUnsignedByte
      readCompactIntFrom tempUintByte.toInt32) := rfl

/-! ### The bytes that are skipped -/

/-- A byte from its octet. -/
theorem toInt32_unsignedByte {b : Int8} {m : ℕ} (h : octet b = m) :
    (unsignedByte b).toInt32 = Int32.ofNat m := by
  have hm : m < 256 := h ▸ octet_lt b
  have hword : word (Int32.ofNat m) = m := by
    show (BitVec.ofNat 32 m).toNat = m
    rw [BitVec.toNat_ofNat]
    exact Nat.mod_eq_of_lt (by omega)
  rw [← word_inj, word_unsignedByte, hword, h]

/-- `k` moves by one byte. -/
def skipBytes : ℕ → ReadCall Unit
  | 0 => pure ()
  | k + 1 => do
      moveBufferPos 1
      skipBytes k

/-- As many bytes are skipped as there are one bits behind the first four. -/
theorem skipOutOfRange_eq {b : Int8} {k : ℕ} (hclass : classOf (octet b) = k + 4) :
    skipOutOfRange 4 (unsignedByte b).toInt32 = skipBytes k := by
  have hlow := le_of_classOf hclass
  have hle := classOf_le (octet b)
  have hlt := octet_lt b
  have hk : k ≤ 4 := by omega
  have hb : 240 ≤ octet b := by interval_cases k <;> norm_num at hlow <;> omega
  obtain ⟨o, ho⟩ : ∃ o, octet b = o := ⟨_, rfl⟩
  rw [toInt32_unsignedByte ho]
  rw [ho] at hclass hb hlt
  obtain rfl : k = classOf o - 4 := by omega
  clear * - hb hlt
  interval_cases o <;> rfl

theorem exec_skipBytes (k : ℕ) (pre rest : List Int8) (limit : ℕ) :
    exec (skipBytes k) (inputAt pre rest limit) =
      (.ok (), inputAt (pre ++ rest.take k) (rest.drop k) limit) := by
  induction k generalizing pre rest with
  | zero => simp [skipBytes]
  | succ k ih =>
      have hmove : exec (moveBufferPos 1) (inputAt pre rest limit) =
          (.ok (), inputAt (pre ++ rest.take 1) (rest.drop 1) limit) := by
        cases rest with
        | nil => simp [moveBufferPos, inputAt, InputContext.inBufferLength, InputContext.buffer]
        | cons b rest =>
            simp [moveBufferPos, inputAt, InputContext.inBufferLength, InputContext.buffer]
      rw [skipBytes, exec_bind_ok hmove, ih]
      cases rest with
      | nil => simp
      | cons b rest => simp

/-! ### The reader of an int -/

/-- A number of at most 32 bits is one of 32 bits. -/
theorem bmod_bmod_two_pow {w : ℕ} (hw : w ≤ 31) (x : ℤ) :
    (x.bmod (2 ^ w)).bmod (2 ^ 32) = x.bmod (2 ^ w) := by
  have hpow : 2 ^ w ≤ 2 ^ 31 := Nat.pow_le_pow_right (by norm_num) hw
  have hlow := Int.le_bmod (x := x) (Nat.two_pow_pos w)
  have hhigh := Int.bmod_lt (x := x) (Nat.two_pow_pos w)
  apply Int.bmod_eq_of_le <;> omega

/-- `dx_read_compact_int` behind the first byte of a number of at most five bytes. -/
theorem reads_readCompactIntFrom (b : Int8) (bs : List Int8) (k : ℕ) (hk : k ≤ 4)
    (hclass : classOf (octet b) = k) (hlen : bs.length = k) :
    ∃ v, Reads (readCompactIntFrom (unsignedByte b).toInt32) bs v ∧
      v.toInt = ((bytesValue (b :: bs) : ℤ).bmod (2 ^ width k)).bmod (2 ^ 32) := by
  have hlow := le_of_classOf hclass
  have hhigh := lt_of_classOf hclass
  unfold readCompactIntFrom
  simp only [firstByte_lt_iff b 0x80 (m := 0x80) rfl (by norm_num),
    firstByte_lt_iff b 0xC0 (m := 0xC0) rfl (by norm_num),
    firstByte_lt_iff b 0xE0 (m := 0xE0) rfl (by norm_num),
    firstByte_lt_iff b 0xF0 (m := 0xF0) rfl (by norm_num)]
  interval_cases k <;> norm_num at hlow hhigh
  · obtain rfl := List.length_eq_zero_iff.mp hlen
    rw [if_pos (by omega)]
    refine ⟨_, reads_pure _, ?_⟩
    rw [toInt_signExtend _ 25 (k := 25) rfl (by norm_num), word_unsignedByte, bytesValue_singleton,
      bmod_bmod_two_pow (by norm_num [width])]
    rfl
  · obtain ⟨b₁, rfl⟩ := List.length_eq_one_iff.mp hlen
    rw [if_neg (by omega), if_pos (by omega)]
    refine ⟨_, (reads_readUnsignedByte b₁).map, ?_⟩
    rw [toInt_signExtend _ 18 (k := 18) rfl (by norm_num), word_byte_byte,
      bmod_bmod_two_pow (by norm_num [width])]
    rfl
  · obtain ⟨b₁, b₀, rfl⟩ := List.length_eq_two.mp hlen
    rw [if_neg (by omega), if_neg (by omega), if_pos (by omega)]
    refine ⟨_, (reads_readUnsignedShort b₁ b₀).map, ?_⟩
    rw [toInt_signExtend _ 11 (k := 11) rfl (by norm_num), word_byte_short,
      bmod_bmod_two_pow (by norm_num [width])]
    rfl
  · obtain ⟨b₂, b₁, b₀, rfl⟩ := List.length_eq_three.mp hlen
    rw [if_neg (by omega), if_neg (by omega), if_neg (by omega), if_pos (by omega)]
    refine ⟨_, (reads_readUnsignedByte b₂).bind (reads_readUnsignedShort b₁ b₀).map, ?_⟩
    rw [toInt_signExtend _ 4 (k := 4) rfl (by norm_num), word_byte_byte_short,
      bmod_bmod_two_pow (by norm_num [width])]
    rfl
  · obtain ⟨b₃, l, rfl⟩ := List.exists_cons_of_length_eq_add_one hlen
    obtain ⟨b₂, b₁, b₀, rfl⟩ := List.length_eq_three.mp (Nat.succ.inj hlen)
    rw [if_neg (by omega), if_neg (by omega), if_neg (by omega), if_neg (by omega),
      skipOutOfRange_eq (k := 0) hclass]
    refine ⟨_, (reads_pure ()).bind (reads_readInt b₃ b₂ b₁ b₀), ?_⟩
    rw [toInt_eq_bmod, word_intOf, bytesValue_cons b, Int.bmod_bmod_of_dvd (by norm_num [width])]
    simp only [List.length_cons, List.length_nil, Int.bmod_def]
    norm_num

/-- The bytes written for an `int` are read as the `int`. -/
theorem reads_writtenInt {value : Int32} {bs : List Int8} (h : bs.map octet = encode value.toInt) :
    Reads readCompactInt bs value := by
  have hmin := value.le_toInt
  have hmax := value.toInt_lt
  have hfour : Fits 4 value.toInt := ⟨by norm_num [width]; omega, by norm_num [width]; omega⟩
  have hclass := sizeClass_le_of_fits (by norm_num) hfour
  have hlen : bs.length = sizeClass value.toInt + 1 := by
    rw [← bs.length_map octet, h, length_encode]
  obtain ⟨b, bs, rfl⟩ := List.exists_cons_of_length_eq_add_one hlen
  obtain ⟨v, hreads, hv⟩ := reads_readCompactIntFrom b bs _ hclass (classOf_head_encode h)
    (Nat.succ.inj hlen)
  have hnumber : (bytesValue (b :: bs) : ℤ).bmod (2 ^ width (sizeClass value.toInt)) =
      value.toInt := by
    rw [bytesValue, h]
    exact numberOf_pattern (sizeClass_le _)
      (fits_sizeClass (hfour.mono (by norm_num) (by norm_num)))
  obtain rfl : v = value := by
    rw [← Int32.toInt_inj, hv, hnumber]
    exact Int.bmod_eq_of_le (by omega) (by omega)
  rw [readCompactInt_eq]
  exact (reads_readUnsignedByte b).bind hreads

/-- In the output stream `out` the `int` is written, in as many bytes as its compact size; from any
input buffer that holds these bytes between `pre` and `post`, with the position on them, they are
read back and consumed, and nothing else. -/
def CompactIntRoundTrip (value : Int32) (out : OutputContext) (pre post : List Int8)
    (limit : ℕ) : Prop :=
  ∃ out', exec (writeCompactInt value) out = (.ok (), out') ∧
    (out'.writtenFrom out.currentOutBufferPosition).length = getCompactSize value.toInt64 ∧
    exec readCompactInt
        (inputAt pre (out'.writtenFrom out.currentOutBufferPosition ++ post) limit) =
      (.ok value, inputAt (pre ++ out'.writtenFrom out.currentOutBufferPosition) post limit)

/-- In the output stream `out` the number is written in as many bytes as its compact size. -/
def TakesCompactSize (value : Int64) (out : OutputContext) : Prop :=
  ∃ out', exec (writeCompactLong value) out = (.ok (), out') ∧
    (out'.writtenFrom out.currentOutBufferPosition).length = getCompactSize value

/-- Every `int` makes the round trip, and every number takes its compact size. -/
theorem compactIntRoundTrip (int : Int32) (long : Int64) (intOut longOut : OutputContext)
    (pre post : List Int8) (limit : ℕ) (hint : intOut.HasRoom 5)
    (hlong : longOut.HasRoom (roomForLong long))
    (hlen : pre.length + getCompactSize int.toInt64 + post.length ≤ INT_MAX) :
    CompactIntRoundTrip int intOut pre post limit ∧ TakesCompactSize long longOut := by
  have hsize : ∀ (value : Int64) (bs : List Int8), bs.map octet = encode value.toInt →
      bs.length = getCompactSize value := by
    intro value bs h
    rw [← bs.length_map octet, h, length_encode, getCompactSize_eq]
  constructor
  · obtain ⟨before, room, rfl⟩ := hint.eq_outputAt
    obtain ⟨bs, room', hwrite, hoctets⟩ := exec_writeCompactInt int hint
    have hbs := hsize int.toInt64 bs (by rw [Int32.toInt_toInt64, hoctets])
    refine ⟨_, hwrite, ?_, ?_⟩ <;> rw [currentOutBufferPosition_outputAt, writtenFrom_outputAt]
    · exact hbs
    · apply reads_writtenInt hoctets
      rw [List.length_append, List.length_append]
      omega
  · obtain ⟨before, room, rfl⟩ := hlong.eq_outputAt
    obtain ⟨bs, room', hwrite, hoctets⟩ := exec_writeCompactLong long hlong
    refine ⟨_, hwrite, ?_⟩
    rw [currentOutBufferPosition_outputAt, writtenFrom_outputAt]
    exact hsize long bs hoctets

/-- The number -65 in a buffer of 16 bytes, read back with a byte before and after it. -/
theorem compactIntRoundTrip_minus_65 :
    CompactIntRoundTrip (-65) (outputAt [1, 2] (List.replicate 14 0)) [7] [9] 5 ∧
      TakesCompactSize 65536 (outputAt [1, 2] (List.replicate 14 0)) :=
  compactIntRoundTrip (-65) 65536 (outputAt [1, 2] (List.replicate 14 0))
    (outputAt [1, 2] (List.replicate 14 0)) [7] [9] 5
    ⟨rfl, by decide, by decide, Or.inl (by decide)⟩
    ⟨rfl, by decide, by decide, Or.inl (by decide)⟩ (by decide)

/-! ### The two readers -/

section Agree

variable {α : Type} {input out out' : InputContext}

/-- Both calls succeed or none does; if they do, they end at the same position, and the `int` of the
first one is the low half of the `long` of the other one. -/
structure Agree (x : ReadCall Int32) (y : ReadCall Int64) (input : InputContext) : Prop where
  returns_iff : Returns x input ↔ Returns y input
  agree : ∀ int long out out', exec x input = (.ok int, out) → exec y input = (.ok long, out') →
    out.currentInBufferPosition = out'.currentInBufferPosition ∧ int = long.toInt32

/-- Calls that fail. -/
theorem agree_of_error {x : ReadCall Int32} {y : ReadCall Int64} {e e' : ErrorCode}
    (hx : exec x input = (.error e, out)) (hy : exec y input = (.error e', out')) :
    Agree x y input where
  returns_iff := by
    refine iff_of_false ?_ ?_
    · rintro ⟨a, ha⟩
      rw [hx] at ha
      exact nomatch ha
    · rintro ⟨a, ha⟩
      rw [hy] at ha
      exact nomatch ha
  agree := by
    intro int long _ _ hok
    rw [hx] at hok
    exact nomatch (Prod.mk.inj hok).1

/-- Calls that succeed. -/
theorem agree_iff_of_ok {x : ReadCall Int32} {y : ReadCall Int64} {int : Int32} {long : Int64}
    (hx : exec x input = (.ok int, out)) (hy : exec y input = (.ok long, out')) :
    Agree x y input ↔
      out.currentInBufferPosition = out'.currentInBufferPosition ∧ int = long.toInt32 := by
  constructor
  · intro h
    exact h.agree int long out out' hx hy
  · intro h
    refine ⟨iff_of_true ⟨int, by rw [hx]⟩ ⟨long, by rw [hy]⟩, ?_⟩
    intro a b s t ha hb
    rw [hx] at ha
    rw [hy] at hb
    obtain ⟨hint, rfl⟩ := Prod.mk.inj ha
    obtain ⟨hlong, rfl⟩ := Prod.mk.inj hb
    obtain rfl := Except.ok.inj hint
    obtain rfl := Except.ok.inj hlong
    exact h

/-- Calls that start in the same way. -/
theorem agree_bind_ok {z : ReadCall α} {f : α → ReadCall Int32} {g : α → ReadCall Int64} {a : α}
    (hz : exec z input = (.ok a, out)) :
    Agree (z >>= f) (z >>= g) input ↔ Agree (f a) (g a) out := by
  have hf := exec_bind_ok (f := f) hz
  have hg := exec_bind_ok (f := g) hz
  constructor
  · rintro ⟨hreturns, hagree⟩
    rw [Returns, Returns, hf, hg] at hreturns
    rw [hf, hg] at hagree
    exact ⟨hreturns, hagree⟩
  · rintro ⟨hreturns, hagree⟩
    rw [← hf, ← hg] at hagree
    refine ⟨?_, hagree⟩
    rw [Returns, Returns, hf, hg]
    exact hreturns

theorem agree_bind_error {z : ReadCall α} {f : α → ReadCall Int32} {g : α → ReadCall Int64}
    {e : ErrorCode} (hz : exec z input = (.error e, out)) : Agree (z >>= f) (z >>= g) input :=
  agree_of_error (exec_bind_error hz) (exec_bind_error hz)

/-- Calls that differ only in the width of what they return. -/
theorem agree_map (z : ReadCall α) (f : α → Int32) :
    Agree (do return f (← z)) (do return (f (← z)).toInt64) input := by
  rcases hz : exec z input with ⟨e | a, out⟩
  · exact agree_bind_error hz
  · rw [agree_bind_ok hz, agree_iff_of_ok (exec_pure _ _) (exec_pure _ _)]
    exact ⟨rfl, (Int32.toInt32_toInt64 _).symm⟩

end Agree

section Readers

variable {pre rest : List Int8} {limit : ℕ}

/-- A capacity test inside of the range of `int`, or one that wraps. -/
theorem exec_validateBuffer_inputAt {n : ℕ} (hn : n ≤ 4) (hlen : (pre ++ rest).length ≤ INT_MAX)
    (limit : ℕ) :
    exec (validateBuffer n) (inputAt pre rest limit) =
      if n ≤ rest.length ∨ INT_MAX < pre.length + n then (.ok (), inputAt pre rest limit)
      else (.error .bufferUnderflow, inputAt pre rest limit) := by
  rw [List.length_append] at hlen
  have henough : isCapacityEnough pre.length n (pre.length + rest.length) =
      decide (n ≤ rest.length ∨ INT_MAX < pre.length + n) := by
    by_cases hover : INT_MAX < pre.length + n
    · rw [decide_eq_true (Or.inr hover)]
      exact isCapacityEnough_overflow hover (by omega) hlen
    · rw [isCapacityEnough_eq _ _ hlen (Nat.le_of_not_lt hover), decide_eq_decide]
      omega
  have hlength : (inputAt pre rest limit).inBufferLength = pre.length + rest.length :=
    List.length_append
  have hsome : (inputAt pre rest limit).inBuffer.isNone = false := rfl
  have hposition : (inputAt pre rest limit).currentInBufferPosition = pre.length := rfl
  rw [validateBuffer, exec_bind_ok (exec_get _), hsome, hposition, hlength, henough]
  by_cases h : n ≤ rest.length ∨ INT_MAX < pre.length + n
  · rw [if_pos h, decide_eq_true h]
    rfl
  · rw [if_neg h, decide_eq_false h]
    rfl

/-- A byte that is read, inside of the buffer or behind a test that wraps. -/
theorem exec_readUnsignedByte_inputAt (hlen : (pre ++ rest).length ≤ INT_MAX) (limit : ℕ) :
    exec readUnsignedByte (inputAt pre rest limit) =
      if 1 ≤ rest.length ∨ INT_MAX < pre.length + 1 then
        (.ok (unsignedByte (rest.headD 0)),
          { inputAt pre rest limit with currentInBufferPosition := pre.length + 1 })
      else (.error .bufferUnderflow, inputAt pre rest limit) := by
  have hvalid := exec_validateBuffer_inputAt (show 1 ≤ 4 by norm_num) hlen limit
  have hbyte : (pre ++ rest).getD pre.length 0 = rest.headD 0 := by
    cases rest <;> simp
  by_cases h : 1 ≤ rest.length ∨ INT_MAX < pre.length + 1
  · rw [if_pos h] at hvalid ⊢
    rw [readUnsignedByte, exec_bind_ok hvalid, ← hbyte]
    rfl
  · rw [if_neg h] at hvalid ⊢
    exact exec_bind_error hvalid

/-- A number of 14 bits is the same with its sign and without it if it is less than `2 ^ 13`. -/
theorem bmod_eq_mod_iff (x : ℕ) :
    (x : ℤ).bmod (2 ^ 14) = ((x % 2 ^ 14 : ℕ) : ℤ).bmod (2 ^ 32) ↔ x % 2 ^ 14 < 2 ^ 13 := by
  have hsmall : ((x % 2 ^ 14 : ℕ) : ℤ).bmod (2 ^ 32) = (x % 2 ^ 14 : ℕ) :=
    Int.bmod_eq_of_le (by omega) (by omega)
  rw [hsmall, Int.bmod_def]
  split_ifs <;> omega

/-- Numbers of two bytes: `dx_read_compact_long` does not extend their sign. -/
theorem agree_two_bytes {n : Int32} {b : Int8} (b₁ : Int8) (hn : n = (unsignedByte b).toInt32)
    (hlow : 0x80 ≤ octet b) (hhigh : octet b < 0xC0) :
    ((n <<< 8 ||| (unsignedByte b₁).toInt32) <<< 18) >>> 18 =
        ((((n <<< 8).toUInt32 ||| unsignedByte b₁) <<< 18) >>> 18).toUInt64.toInt64.toInt32 ↔
      octet b < 0xA0 := by
  subst hn
  have hb₁ := octet_lt b₁
  have hword := word_byte_byte b b₁
  have hint := toInt_signExtend ((unsignedByte b).toInt32 <<< 8 ||| (unsignedByte b₁).toInt32) 18
    (k := 18) rfl (by norm_num)
  have hlong := toNat_shiftLeft_ushiftRight (k := 18)
    ((unsignedByte b).toInt32 <<< 8 ||| (unsignedByte b₁).toInt32).toBitVec (by norm_num)
  have hbits : (((unsignedByte b).toInt32 <<< 8 ||| (unsignedByte b₁).toInt32).toBitVec).toNat =
      bytesValue [b, b₁] := hword
  rw [hbits] at hlong
  rw [hword] at hint
  have hunsigned : ((((unsignedByte b).toInt32 <<< 8).toUInt32 ||| unsignedByte b₁) <<< 18 >>>
      18).toUInt64.toInt64.toInt = (bytesValue [b, b₁] % 2 ^ 14 : ℕ) := by
    rw [toInt_unsigned]
    exact_mod_cast hlong
  have hvalue : bytesValue [b, b₁] = octet b * 256 + octet b₁ := by
    rw [bytesValue_cons, bytesValue_singleton]
    rfl
  rw [← Int32.toInt_inj, hint, Int64.toInt_toInt32, hunsigned]
  refine (bmod_eq_mod_iff _).trans ?_
  rw [hvalue]
  omega

/-- In front of the low word, `dx_read_compact_long` takes as many bytes as the class tells. -/
theorem readCompactHigh_reach {b : Int8} {k : ℕ} (hclass : classOf (octet b) = k + 4) :
    Takes k (readCompactHigh (unsignedByte b).toInt32) ∧
      Steps k (readCompactHigh (unsignedByte b).toInt32) := by
  have hlow := le_of_classOf hclass
  have hhigh := lt_of_classOf hclass
  have hk : k ≤ 4 := by
    have hle := classOf_le (octet b)
    omega
  unfold readCompactHigh
  simp only [firstByte_lt_iff b 0xF8 (m := 0xF8) rfl (by norm_num),
    firstByte_lt_iff b 0xFC (m := 0xFC) rfl (by norm_num),
    firstByte_lt_iff b 0xFE (m := 0xFE) rfl (by norm_num),
    firstByte_lt_iff b 0xFF (m := 0xFF) rfl (by norm_num)]
  have hbyte := readUnsignedByte_reach.1
  have hshort := readUnsignedShort_reach.1
  interval_cases k <;> norm_num at hlow hhigh
  · rw [if_pos (by omega)]
    exact ⟨takes_pure _, steps_pure _⟩
  · rw [if_neg (by omega), if_pos (by omega)]
    exact ⟨hbyte.map _, steps_readUnsignedByte.map _⟩
  · rw [if_neg (by omega), if_neg (by omega), if_pos (by omega)]
    exact ⟨hshort.map _, steps_readUnsignedShort.map _⟩
  · rw [if_neg (by omega), if_neg (by omega), if_neg (by omega), if_pos (by omega)]
    exact ⟨readByte_reach.1.bind fun _ => hshort.map _,
      steps_readByte.bind fun _ => steps_readUnsignedShort.map _⟩
  · rw [if_neg (by omega), if_neg (by omega), if_neg (by omega), if_neg (by omega)]
    exact ⟨readInt_reach.1, steps_readInt⟩

/-- The low half of a number of two words. -/
theorem toInt32_high_or_low (high low : Int32) :
    (high.toInt64 <<< 32 ||| (low.toInt64 &&& 0xFFFFFFFF)).toInt32 = low := by
  rw [← Int32.toInt_inj, Int64.toInt_toInt32, toInt_high_or_low, toInt_eq_bmod low]
  exact Int.mul_add_bmod_self_right _ _ _

/-- Behind the first byte of a number out of range, the readers agree if the bytes that are skipped
are there, or if the capacity test behind the buffer does not wrap. -/
theorem agree_out_of_range {b : Int8} {k : ℕ} (hclass : classOf (octet b) = k + 4)
    (hlen : (pre ++ rest).length ≤ INT_MAX) :
    Agree (do skipOutOfRange 4 (unsignedByte b).toInt32; readInt)
        (do
          let high ← readCompactHigh (unsignedByte b).toInt32
          let tmpInt ← readInt
          return high.toInt64 <<< 32 ||| (tmpInt.toInt64 &&& 0xFFFFFFFF))
        (inputAt pre rest limit) ↔
      k ≤ rest.length ∨ (pre ++ rest).length + 4 ≤ INT_MAX := by
  have hk : k ≤ 4 := by
    have hle := classOf_le (octet b)
    omega
  have hskip := exec_skipBytes k pre rest limit
  rw [← skipOutOfRange_eq hclass] at hskip
  by_cases hthere : k ≤ rest.length
  · -- both readers come to the same place
    refine iff_of_true ?_ (Or.inl hthere)
    obtain ⟨high, hreads, -⟩ := reads_readCompactHigh b (rest.take k) k hk hclass
      (List.length_take_of_le hthere)
    have hhigh := hreads pre (rest.drop k) limit (by rwa [List.take_append_drop])
    rw [List.take_append_drop] at hhigh
    rcases hint : exec readInt (inputAt (pre ++ rest.take k) (rest.drop k) limit) with
      ⟨e | low, out⟩
    · exact agree_of_error ((exec_bind_ok hskip).trans hint)
        ((exec_bind_ok hhigh).trans (exec_bind_error hint))
    · refine (agree_iff_of_ok ((exec_bind_ok hskip).trans hint)
        ((exec_bind_ok hhigh).trans (exec_bind_ok hint))).mpr ⟨rfl, ?_⟩
      exact (toInt32_high_or_low high low).symm
  · have hall : rest.take k = rest := List.take_of_length_le (by omega)
    have hnone : rest.drop k = [] := List.drop_of_length_le (by omega)
    rw [hall, hnone] at hskip
    have hlen' : ((pre ++ rest) ++ []).length ≤ INT_MAX := by rwa [List.append_nil]
    have hvalid := exec_validateBuffer_inputAt (le_refl 4) hlen' limit
    rw [List.length_append] at hlen
    by_cases hmax : (pre ++ rest).length + 4 ≤ INT_MAX
    · refine iff_of_true ?_ (Or.inr hmax)
      rw [List.length_append] at hmax
      rw [if_neg (by simp; omega)] at hvalid
      have hrange : (inputAt pre rest limit).InRange k :=
        ⟨by simp [inputAt, InputContext.inBufferLength, InputContext.buffer],
          by simpa [inputAt, InputContext.inBufferLength, InputContext.buffer] using hlen,
          by simp [inputAt]; omega⟩
      rcases hhigh : exec (readCompactHigh (unsignedByte b).toInt32) (inputAt pre rest limit) with
        ⟨e | high, out⟩
      · exact agree_of_error ((exec_bind_ok hskip).trans (exec_bind_error hvalid))
          (exec_bind_error hhigh)
      · -- the bytes of the high word are not there
        have hbound := ((readCompactHigh_reach hclass).1 _ _ high hrange hhigh).bound
        simp [inputAt, InputContext.inBufferLength, InputContext.buffer] at hbound
        omega
    · refine iff_of_false ?_ (not_or.mpr ⟨hthere, hmax⟩)
      rw [if_pos (Or.inr (Nat.lt_of_not_le hmax))] at hvalid
      intro hagree
      obtain ⟨int, hint⟩ := (consumes_nextByte.bind fun b₃ => consumes_nextByte.bind fun b₂ =>
        consumes_nextByte.bind fun b₁ => consumes_nextByte.bind fun b₀ =>
          consumes_pure (intOf b₃ b₂ b₁ b₀)) (inputAt (pre ++ rest) [] limit)
      have hread : exec readInt (inputAt (pre ++ rest) [] limit) = (.ok int, _) :=
        (exec_bind_ok hvalid).trans hint
      have hx : exec (do skipOutOfRange 4 (unsignedByte b).toInt32; readInt)
          (inputAt pre rest limit) = (.ok int, _) := (exec_bind_ok hskip).trans hread
      obtain ⟨long, hlong⟩ := hagree.returns_iff.mp ⟨int, by rw [hx]⟩
      have hposition := (hagree.agree int long _ _ hx (Prod.ext hlong rfl)).1
      -- the long takes the bytes that are skipped, too
      have hsteps := ((readCompactHigh_reach hclass).2.bind fun high => steps_readInt.map
        fun tmpInt => high.toInt64 <<< 32 ||| (tmpInt.toInt64 &&& 0xFFFFFFFF)) _ _ long
        (Prod.ext hlong rfl)
      rw [hsteps] at hposition
      simp [inputAt] at hposition
      omega

/-- The readers behind a first byte. -/
theorem agree_behind (b : Int8) (hlen : (pre ++ rest).length ≤ INT_MAX) :
    Agree (readCompactIntFrom (unsignedByte b).toInt32)
        (readCompactLongFrom (unsignedByte b).toInt32) (inputAt pre rest limit) ↔
      ¬ (0xA0 ≤ octet b ∧ octet b < 0xC0 ∧ (1 ≤ rest.length ∨ INT_MAX < pre.length + 1)) ∧
        ¬ (0xF8 ≤ octet b ∧ rest.length < classOf (octet b) - 4 ∧
          INT_MAX < (pre ++ rest).length + 4) := by
  unfold readCompactIntFrom readCompactLongFrom
  simp only [firstByte_lt_iff b 0x80 (m := 0x80) rfl (by norm_num),
    firstByte_lt_iff b 0xC0 (m := 0xC0) rfl (by norm_num),
    firstByte_lt_iff b 0xE0 (m := 0xE0) rfl (by norm_num),
    firstByte_lt_iff b 0xF0 (m := 0xF0) rfl (by norm_num)]
  by_cases hone : octet b < 0x80
  · rw [if_pos hone, if_pos hone]
    refine iff_of_true ?_ (by omega)
    exact (agree_iff_of_ok (exec_pure _ _) (exec_pure _ _)).mpr
      ⟨rfl, (Int32.toInt32_toInt64 _).symm⟩
  rw [if_neg hone, if_neg hone]
  by_cases htwo : octet b < 0xC0
  · rw [if_pos htwo, if_pos htwo]
    have hbyte := exec_readUnsignedByte_inputAt hlen limit
    by_cases hthere : 1 ≤ rest.length ∨ INT_MAX < pre.length + 1
    · rw [if_pos hthere] at hbyte
      rw [agree_bind_ok hbyte, agree_iff_of_ok (exec_pure _ _) (exec_pure _ _),
        agree_two_bytes _ rfl (Nat.le_of_not_lt hone) htwo]
      omega
    · rw [if_neg hthere] at hbyte
      exact iff_of_true (agree_bind_error hbyte) (by omega)
  rw [if_neg htwo, if_neg htwo]
  by_cases hthree : octet b < 0xE0
  · rw [if_pos hthree, if_pos hthree]
    exact iff_of_true (agree_map _ _) (by omega)
  rw [if_neg hthree, if_neg hthree]
  by_cases hfour : octet b < 0xF0
  · rw [if_pos hfour, if_pos hfour]
    refine iff_of_true ?_ (by omega)
    rcases hbyte : exec readUnsignedByte (inputAt pre rest limit) with ⟨e | tmpByte, out⟩
    · exact agree_bind_error hbyte
    · rw [agree_bind_ok hbyte]
      exact agree_map _ _
  rw [if_neg hfour, if_neg hfour]
  obtain ⟨k, hclass⟩ : ∃ k, classOf (octet b) = k + 4 := by
    refine ⟨classOf (octet b) - 4, ?_⟩
    unfold classOf
    split_ifs <;> omega
  have hskips : octet b < 0xF8 → k = 0 := by
    intro hlt
    unfold classOf at hclass
    rw [if_neg hone, if_neg htwo, if_neg hthree, if_neg hfour, if_pos hlt] at hclass
    omega
  rw [agree_out_of_range hclass hlen, hclass]
  omega

end Readers

/-- The two bytes of a negative number are read, also by a test that wraps behind the buffer. -/
def TwoByteNegative (input : InputContext) : Prop :=
  0xA0 ≤ octet (input.buffer.getD input.currentInBufferPosition 0) ∧
    octet (input.buffer.getD input.currentInBufferPosition 0) < 0xC0 ∧
    (input.currentInBufferPosition + 2 ≤ input.inBufferLength ∨
      INT_MAX < input.currentInBufferPosition + 2)

/-- The bytes to skip are not all there, and the capacity test for an `int` wraps at the end of the
buffer. -/
def SkipsOverEnd (input : InputContext) : Prop :=
  0xF8 ≤ octet (input.buffer.getD input.currentInBufferPosition 0) ∧
    input.inBufferLength < input.currentInBufferPosition + 1 +
      (classOf (octet (input.buffer.getD input.currentInBufferPosition 0)) - 4) ∧
    INT_MAX < input.inBufferLength + 4

/-- The two readers agree unless they read a negative number of two bytes, or skip bytes over the
end of a buffer where the capacity test wraps. -/
theorem readersAgree_iff (input : InputContext) (hlen : input.inBufferLength ≤ INT_MAX)
    (hposition : input.currentInBufferPosition ≤ input.inBufferLength) :
    Agree readCompactInt readCompactLong input ↔
      ¬ TwoByteNegative input ∧ ¬ SkipsOverEnd input := by
  rw [readCompactInt_eq, readCompactLong]
  obtain ⟨_ | buffer, limit, position⟩ := input
  · -- no buffer
    have hnone : exec readUnsignedByte ⟨none, limit, position⟩ =
      (.error .bufferNotInitialized, ⟨none, limit, position⟩) := rfl
    refine iff_of_true (agree_bind_error hnone) ⟨?_, ?_⟩
    · rintro ⟨hlow, -⟩
      exact absurd hlow (by simp [InputContext.buffer, octet])
    · rintro ⟨hlow, -⟩
      exact absurd hlow (by simp [InputContext.buffer, octet])
  · have hbuffer : buffer.take position ++ buffer.drop position = buffer :=
      List.take_append_drop position buffer
    have hpre : (buffer.take position).length = position := List.length_take_of_le hposition
    generalize buffer.take position = pre at hbuffer hpre
    generalize buffer.drop position = rest at hbuffer
    subst hbuffer hpre
    rw [InputContext.inBufferLength, InputContext.buffer, Option.getD_some] at hlen
    have hbyte := exec_readUnsignedByte_inputAt hlen limit
    have hinput : (⟨some (pre ++ rest), limit, pre.length⟩ : InputContext) =
        inputAt pre rest limit := rfl
    have hfirst : (inputAt pre rest limit).buffer.getD pre.length 0 = rest.headD 0 := by
      show (pre ++ rest).getD pre.length 0 = _
      cases rest <;> simp
    have hlength : (inputAt pre rest limit).inBufferLength = (pre ++ rest).length := rfl
    rw [hinput, TwoByteNegative, SkipsOverEnd, hlength]
    simp only [show (inputAt pre rest limit).currentInBufferPosition = pre.length from rfl, hfirst]
    cases rest with
    | nil =>
        -- a test that wraps lets a zero through
        have hzero : octet 0 = 0 := rfl
        refine iff_of_true ?_ (by rw [List.headD_nil, hzero]; omega)
        by_cases hmax : INT_MAX < pre.length + 1
        · rw [if_pos (Or.inr hmax)] at hbyte
          rw [agree_bind_ok hbyte]
          exact (agree_iff_of_ok (exec_pure _ _) (exec_pure _ _)).mpr ⟨rfl, rfl⟩
        · rw [if_neg (by simp only [List.length_nil]; omega)] at hbyte
          exact agree_bind_error hbyte
    | cons b rest =>
        rw [if_pos (Or.inl (by simp))] at hbyte
        have hstate : ({ inputAt pre (b :: rest) limit with
            currentInBufferPosition := pre.length + 1 } : InputContext) =
            inputAt (pre ++ [b]) rest limit := by
          simp [inputAt]
        have hlen' : (pre ++ [b] ++ rest).length ≤ INT_MAX := by simpa using hlen
        rw [agree_bind_ok hbyte, hstate, List.headD_cons, agree_behind b hlen']
        simp only [List.length_append, List.length_cons, List.length_nil]
        omega

/-- The readers agree on a number of three bytes with a sign. -/
theorem readersAgree_three_bytes :
    Agree readCompactInt readCompactLong (inputAt [7] [-33, -1, -1, 9] 0) ↔
      ¬ TwoByteNegative (inputAt [7] [-33, -1, -1, 9] 0) ∧
        ¬ SkipsOverEnd (inputAt [7] [-33, -1, -1, 9] 0) :=
  readersAgree_iff (inputAt [7] [-33, -1, -1, 9] 0) (by decide) (by decide)

/-- The bytes of -65 are read as -65 and as 16319. -/
theorem not_readersAgree_two_bytes :
    ¬ Agree readCompactInt readCompactLong (inputAt [] [-65, -65] 0) := by
  intro h
  have hint : exec readCompactInt (inputAt [] [-65, -65] 0) =
      (.ok (-65), inputAt [-65, -65] [] 0) := by decide
  have hlong : exec readCompactLong (inputAt [] [-65, -65] 0) =
      (.ok 16319, inputAt [-65, -65] [] 0) := by decide
  exact absurd (h.agree _ _ _ _ hint hlong).2 (by decide)

end DxFeed.BufferedIO
