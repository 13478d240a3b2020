import DxFeed.BufferedIO.Utf

/-!
# Numbers of fixed width

* `writeLong`, `readLong`: `dx_write_long` and `dx_read_long`;
* `RoundTrips`: a number is written as its big-endian bytes, and these are read as the number;
* `fixedWidth_roundTrips_iff`: short and int numbers make the round trip; a long makes it if and
  only if the signs of its bytes agree.
-/

namespace DxFeed.BufferedIO

open Call FixedWidth PrefixCode

/-! ### Longs -/

/-- The value that `dx_read_long` makes of eight bytes; only the last one is masked. -/
def longOf (b₇ b₆ b₅ b₄ b₃ b₂ b₁ b₀ : Int8) : Int64 :=
  b₇.toInt64 <<< 56 ||| b₆.toInt64 <<< 48 ||| b₅.toInt64 <<< 40 ||| b₄.toInt64 <<< 32 |||
    b₃.toInt64 <<< 24 ||| b₂.toInt64 <<< 16 ||| b₁.toInt64 <<< 8 ||| (b₀.toInt64 &&& 0xFF)

/-- `dx_read_long`. -/
def readLong : ReadCall Int64 := do
  validateBuffer 8
  let b₇ ← nextByte
  let b₆ ← nextByte
  let b₅ ← nextByte
  let b₄ ← nextByte
  let b₃ ← nextByte
  let b₂ ← nextByte
  let b₁ ← nextByte
  let b₀ ← nextByte
  return longOf b₇ b₆ b₅ b₄ b₃ b₂ b₁ b₀

/-- `dx_write_long`. -/
def writeLong (value : Int64) : WriteCall Unit := do
  checkWritePossibility 8
  putByte (value >>> 56).toInt8
  putByte (value >>> 48).toInt8
  putByte (value >>> 40).toInt8
  putByte (value >>> 32).toInt8
  putByte (value >>> 24).toInt8
  putByte (value >>> 16).toInt8
  putByte (value >>> 8).toInt8
  putByte value.toInt8

/-- The bytes of a long, most significant first. -/
def longBytes (value : Int64) : List Int8 :=
  [(value >>> 56).toInt8, (value >>> 48).toInt8, (value >>> 40).toInt8, (value >>> 32).toInt8,
    (value >>> 24).toInt8, (value >>> 16).toInt8, (value >>> 8).toInt8, value.toInt8]

/-- The bytes of a short, most significant first. -/
def shortBytes (value : Int16) : List Int8 := [(value >>> 8).toInt8, value.toInt8]

theorem reads_readLong (b₇ b₆ b₅ b₄ b₃ b₂ b₁ b₀ : Int8) :
    Reads readLong [b₇, b₆, b₅, b₄, b₃, b₂, b₁, b₀] (longOf b₇ b₆ b₅ b₄ b₃ b₂ b₁ b₀) :=
  Reads.validate ((reads_nextByte b₇).bind ((reads_nextByte b₆).bind ((reads_nextByte b₅).bind
    ((reads_nextByte b₄).bind ((reads_nextByte b₃).bind ((reads_nextByte b₂).bind
      ((reads_nextByte b₁).bind (reads_nextByte b₀).map))))))) rfl

/-! ### Round trips -/

/-- The value is written as its `n` bytes, the most significant one first, wherever there is room
for them, and they are read as the value wherever they stand. -/
def RoundTrips {α : Type} (write : α → WriteCall Unit) (read : ReadCall α) (n : ℕ) (value : α)
    (number : ℤ) : Prop :=
  ∃ bs : List Int8, bs.map octet = beOctets n (number % 256 ^ n).toNat ∧ Reads read bs value ∧
    ∀ pre room, (outputAt pre room).HasRoom n →
      ∃ room', exec (write value) (outputAt pre room) = (.ok (), outputAt (pre ++ bs) room')

/-- A call behind the test of the capacity. -/
theorem Writes.checked {x : WriteCall Unit} {bs : List Int8} {n : ℕ} (hx : Writes x bs)
    (hlen : bs.length = n) (hn : n ≤ 9) {pre room : List Int8} (h : (outputAt pre room).HasRoom n) :
    ∃ room', exec (do checkWritePossibility n; x) (outputAt pre room) =
      (.ok (), outputAt (pre ++ bs) room') := by
  obtain ⟨room', hcheck, hroom⟩ := exec_checkWritePossibility hn h
  refine ⟨room'.drop bs.length, ?_⟩
  rw [exec_bind_ok hcheck]
  exact hx pre room' (by omega)

theorem writes_longBytes (value : Int64) : Writes (do
    putByte (value >>> 56).toInt8
    putByte (value >>> 48).toInt8
    putByte (value >>> 40).toInt8
    putByte (value >>> 32).toInt8
    putByte (value >>> 24).toInt8
    putByte (value >>> 16).toInt8
    putByte (value >>> 8).toInt8
    putByte value.toInt8) (longBytes value) :=
  (writes_putByte _).bind ((writes_putByte _).bind ((writes_putByte _).bind ((writes_putByte _).bind
    ((writes_putByte _).bind ((writes_putByte _).bind ((writes_putByte _).bind
      (writes_putByte _)))))))

theorem writes_shortBytes (value : Int16) :
    Writes (do putByte (value >>> 8).toInt8; putByte value.toInt8) (shortBytes value) :=
  (writes_putByte _).bind (writes_putByte _)

/-! ### Big-endian bytes -/

/-- A byte of a long is an octet of its number. -/
theorem octet_long (value : Int64) {s : Int64} {k : ℕ} (hs : (s.toBitVec.smod 64).toNat = k) :
    (octet (value >>> s).toInt8 : ℤ) = value.toInt / 2 ^ k % 256 := by
  have hoctet := octet_eq (value >>> s).toInt8
  have hshift : (value >>> s).toInt = value.toInt / 2 ^ k := by
    show (value.toBitVec.sshiftRight (s.toBitVec.smod 64).toNat).toInt = _
    rw [hs, BitVec.toInt_sshiftRight, Int.shiftRight_eq_div_pow]
    norm_cast
  rw [Int64.toInt_toInt8, Int.bmod_def, hshift] at hoctet
  omega

theorem octet_short (value : Int16) {s : Int16} {k : ℕ} (hs : (s.toBitVec.smod 16).toNat = k) :
    (octet (value >>> s).toInt8 : ℤ) = value.toInt / 2 ^ k % 256 := by
  have hoctet := octet_eq (value >>> s).toInt8
  have hshift : (value >>> s).toInt = value.toInt / 2 ^ k := by
    show (value.toBitVec.sshiftRight (s.toBitVec.smod 16).toNat).toInt = _
    rw [hs, BitVec.toInt_sshiftRight, Int.shiftRight_eq_div_pow]
    norm_cast
  rw [Int16.toInt_toInt8, Int.bmod_def, hshift] at hoctet
  omega

theorem octets_shortBytes (value : Int16) :
    (shortBytes value).map octet = beOctets 2 (value.toInt % 256 ^ 2).toNat := by
  have h₀ := octet_short value (s := 0) (k := 0) rfl
  have h₁ := octet_short value (s := 8) (k := 8) rfl
  have hzero : value >>> 0 = value := Int16.shiftRight_zero
  rw [hzero] at h₀
  simp only [shortBytes, beOctets, List.map_cons, List.map_nil, List.cons.injEq, and_true]
  omega

theorem octets_longBytes (value : Int64) :
    (longBytes value).map octet = beOctets 8 (value.toInt % 256 ^ 8).toNat := by
  have h₀ := octet_long value (s := 0) (k := 0) rfl
  have h₁ := octet_long value (s := 8) (k := 8) rfl
  have h₂ := octet_long value (s := 16) (k := 16) rfl
  have h₃ := octet_long value (s := 24) (k := 24) rfl
  have h₄ := octet_long value (s := 32) (k := 32) rfl
  have h₅ := octet_long value (s := 40) (k := 40) rfl
  have h₆ := octet_long value (s := 48) (k := 48) rfl
  have h₇ := octet_long value (s := 56) (k := 56) rfl
  have hzero : value >>> 0 = value := Int64.shiftRight_zero
  rw [hzero] at h₀
  simp only [longBytes, beOctets, List.map_cons, List.map_nil, List.cons.injEq, and_true]
  omega

/-! ### Bits -/

/-- A byte of a long that is read fills the bits above it with its sign. -/
theorem getLsbD_signedByte (value : BitVec 64) {k : ℕ} (hk : k ≤ 56) (j : ℕ) :
    (((value.sshiftRight k).signExtend 8).signExtend 64 <<< k).getLsbD j =
      (decide (j < 64) && decide (k ≤ j) && value.getLsbD (min j (k + 7))) := by
  have hcast : (value.sshiftRight k).signExtend 8 = (value.sshiftRight k).setWidth 8 :=
    BitVec.signExtend_eq_setWidth_of_le _ (by norm_num)
  rw [hcast, BitVec.getLsbD_shiftLeft, BitVec.getLsbD_signExtend, BitVec.msb_eq_getLsbD_last,
    BitVec.getLsbD_setWidth, BitVec.getLsbD_setWidth, BitVec.getLsbD_sshiftRight,
    BitVec.getLsbD_sshiftRight]
  by_cases hj : j < 64
  · by_cases hkj : k ≤ j
    · have hword : ¬ 64 ≤ j - k := by omega
      have hj' : j - k < 64 := by omega
      by_cases hbyte : j - k < 8
      · have hmin : min j (k + 7) = j := by omega
        have hadd : k + (j - k) = j := by omega
        simp [hj, hkj.not_gt, hkj, hbyte, hmin, hadd, hword, hj']
      · have hmin : min j (k + 7) = k + 7 := by omega
        have hsign : k + 7 < 64 := by omega
        simp [hj, hkj, hbyte, hmin, hsign, hj']
    · simp [hkj, Nat.lt_of_not_le hkj]
  · simp [hj]

/-- The last byte is masked. -/
theorem getLsbD_lowByte (value : BitVec 64) (j : ℕ) :
    ((value.signExtend 8).signExtend 64 &&& 0xFF#64).getLsbD j =
      (decide (j < 8) && value.getLsbD j) := by
  have hmask : (0xFF#64).getLsbD j = decide (j < 8) := by
    rw [BitVec.getLsbD_ofNat]
    have h : Nat.testBit (2 ^ 8 - 1) j = decide (j < 8) := Nat.testBit_two_pow_sub_one 8 j
    rw [show (0xFF : ℕ) = 2 ^ 8 - 1 from rfl, h]
    by_cases hj : j < 8
    · simp [hj, show j < 64 by omega]
    · simp [hj]
  have hcast : value.signExtend 8 = value.setWidth 8 :=
    BitVec.signExtend_eq_setWidth_of_le _ (by norm_num)
  rw [BitVec.getLsbD_and, hmask, hcast, BitVec.getLsbD_signExtend, BitVec.getLsbD_setWidth]
  by_cases hj : j < 8
  · simp [hj, show j < 64 by omega]
  · simp [hj]

/-- A bit of the long that is read for the bytes of a long: it is set in the long, or the sign of a
byte below it is. -/
theorem getLsbD_longOf (value : Int64) {j : ℕ} (hj : j < 64) :
    (longOf (value >>> 56).toInt8 (value >>> 48).toInt8 (value >>> 40).toInt8 (value >>> 32).toInt8
      (value >>> 24).toInt8 (value >>> 16).toInt8 (value >>> 8).toInt8
      value.toInt8).toBitVec.getLsbD j = true ↔
      (∃ k ∈ [56, 48, 40, 32, 24, 16, 8], k ≤ j ∧ value.toBitVec.getLsbD (min j (k + 7))) ∨
        (j < 8 ∧ value.toBitVec.getLsbD j) := by
  have hbyte := fun (k : ℕ) (hk : k ≤ 56) => getLsbD_signedByte value.toBitVec hk j
  have hlow := getLsbD_lowByte value.toBitVec j
  show (((value.toBitVec.sshiftRight 56).signExtend 8).signExtend 64 <<< 56 |||
    ((value.toBitVec.sshiftRight 48).signExtend 8).signExtend 64 <<< 48 |||
    ((value.toBitVec.sshiftRight 40).signExtend 8).signExtend 64 <<< 40 |||
    ((value.toBitVec.sshiftRight 32).signExtend 8).signExtend 64 <<< 32 |||
    ((value.toBitVec.sshiftRight 24).signExtend 8).signExtend 64 <<< 24 |||
    ((value.toBitVec.sshiftRight 16).signExtend 8).signExtend 64 <<< 16 |||
    ((value.toBitVec.sshiftRight 8).signExtend 8).signExtend 64 <<< 8 |||
    ((value.toBitVec.signExtend 8).signExtend 64 &&& 0xFF#64)).getLsbD j = true ↔ _
  simp only [BitVec.getLsbD_or, hlow, hbyte 56 (by norm_num), hbyte 48 (by norm_num),
    hbyte 40 (by norm_num), hbyte 32 (by norm_num), hbyte 24 (by norm_num),
    hbyte 16 (by norm_num), hbyte 8 (by norm_num), hj, decide_true, Bool.true_and,
    Bool.or_eq_true, Bool.and_eq_true, decide_eq_true_eq, List.mem_cons, List.not_mem_nil,
    or_false, exists_eq_or_imp, exists_eq_left]
  simp only [or_assoc]

/-! ### The round trip -/

/-- A byte of the long that is neither the first one nor the last one is negative only if all the
bits above it are set. -/
def SignsAgree (value : Int64) : Prop :=
  ∀ k ∈ [48, 40, 32, 24, 16, 8], value.toBitVec.getLsbD (k + 7) →
    ∀ j < 64, k + 7 ≤ j → value.toBitVec.getLsbD j

instance (value : Int64) : Decidable (SignsAgree value) :=
  inferInstanceAs (Decidable (∀ k ∈ [48, 40, 32, 24, 16, 8], value.toBitVec.getLsbD (k + 7) →
    ∀ j < 64, k + 7 ≤ j → value.toBitVec.getLsbD j))

/-- The bytes of a long are read as the long if and only if their signs agree. -/
theorem longOf_longBytes_iff (value : Int64) :
    longOf (value >>> 56).toInt8 (value >>> 48).toInt8 (value >>> 40).toInt8 (value >>> 32).toInt8
      (value >>> 24).toInt8 (value >>> 16).toInt8 (value >>> 8).toInt8 value.toInt8 = value ↔
      SignsAgree value := by
  constructor
  · intro hread k hk hsign j hj hkj
    have hbit := getLsbD_longOf value hj
    rw [hread] at hbit
    have hmin : min j (k + 7) = k + 7 := by omega
    refine hbit.mpr (Or.inl ⟨k, List.mem_cons_of_mem _ hk, by omega, ?_⟩)
    rwa [hmin]
  · intro hagree
    refine Int64.toBitVec_inj.mp (BitVec.eq_of_getLsbD_eq fun j hj => ?_)
    rw [Bool.eq_iff_iff, getLsbD_longOf value hj]
    constructor
    · rintro (⟨k, hk, hkj, hbit⟩ | ⟨-, hbit⟩)
      · -- a bit of the byte, or the sign of the byte
        rcases Nat.lt_or_ge j (k + 7) with hbelow | habove
        · rwa [min_eq_left hbelow.le] at hbit
        · rw [min_eq_right habove] at hbit
          rcases List.mem_cons.mp hk with rfl | hk
          · obtain rfl : j = 56 + 7 := by omega
            exact hbit
          · exact hagree k hk hbit j hj habove
      · exact hbit
    · intro hbit
      by_cases hlow : j < 8
      · exact Or.inr ⟨hlow, hbit⟩
      · refine Or.inl ⟨8 * (j / 8), ?_, by omega, ?_⟩
        · have hclass : j / 8 = 1 ∨ j / 8 = 2 ∨ j / 8 = 3 ∨ j / 8 = 4 ∨ j / 8 = 5 ∨ j / 8 = 6 ∨
              j / 8 = 7 := by omega
          rcases hclass with h | h | h | h | h | h | h <;> simp [h]
        · rwa [min_eq_left (by omega)]

theorem shortOf_shortBytes (value : Int16) :
    shortOf (value >>> 8).toInt8 value.toInt8 = value := by
  have hhalf := half_shortOf (value >>> 8).toInt8 value.toInt8
  have hvalue : ((half value : ℕ) : ℤ) = value.toInt % 2 ^ 16 := by
    show (value.toBitVec.toNat : ℤ) = value.toBitVec.toInt % 2 ^ 16
    have h := value.toBitVec.isLt
    rw [BitVec.toInt_eq_toNat_cond]
    split_ifs <;> omega
  have hlow := octet_short value (s := 0) (k := 0) rfl
  have hhigh := octet_short value (s := 8) (k := 8) rfl
  have hzero : value >>> 0 = value := Int16.shiftRight_zero
  rw [hzero] at hlow
  refine Int16.toBitVec_inj.mp (BitVec.eq_of_toNat_eq ?_)
  show half _ = half value
  omega

theorem intOf_intBytes (value : Int32) :
    intOf (toByte (value >>> 24)) (toByte (value >>> 16)) (toByte (value >>> 8)) (toByte value) =
      value := by
  have hvalue := word_lt value
  rw [← word_inj, word_intOf]
  show beValue ((intBytes value).map octet) = word value
  rw [octets_intBytes, beValue_beOctets]
  exact Nat.mod_eq_of_lt hvalue

theorem octet_injective : Function.Injective octet :=
  fun _ _ h => Int8.toBitVec_inj.mp (BitVec.eq_of_toNat_eq h)

/-- Bytes that are short enough are read as one value. -/
theorem Reads.unique {α : Type} {x : ReadCall α} {bs : List Int8} {a b : α} (ha : Reads x bs a)
    (hb : Reads x bs b) (hlen : bs.length ≤ INT_MAX) : a = b := by
  have hexec := ha [] [] 0 (by simpa using hlen)
  rw [hb [] [] 0 (by simpa using hlen)] at hexec
  exact (Except.ok.inj (Prod.mk.inj hexec).1).symm

theorem roundTrips_short (value : Int16) :
    RoundTrips writeShort readShort 2 value value.toInt := by
  have hreads := reads_readShort (value >>> 8).toInt8 value.toInt8
  rw [shortOf_shortBytes] at hreads
  exact ⟨shortBytes value, octets_shortBytes value, hreads, fun pre room h =>
    (writes_shortBytes value).checked rfl (Nat.le_of_ble_eq_true rfl) h⟩

theorem roundTrips_int (value : Int32) : RoundTrips writeInt readInt 4 value value.toInt := by
  have hreads := reads_readInt (toByte (value >>> 24)) (toByte (value >>> 16))
    (toByte (value >>> 8)) (toByte value)
  rw [intOf_intBytes] at hreads
  refine ⟨intBytes value, ?_, hreads, fun pre room h =>
    (writes_writeIntUnchecked value).checked rfl (Nat.le_of_ble_eq_true rfl) h⟩
  have hword := word_eq value
  rw [octets_intBytes]
  congr 1
  omega

/-- A long makes the round trip if and only if the signs of its bytes agree. -/
theorem roundTrips_long_iff (value : Int64) :
    RoundTrips writeLong readLong 8 value value.toInt ↔ SignsAgree value := by
  have hreads := reads_readLong (value >>> 56).toInt8 (value >>> 48).toInt8 (value >>> 40).toInt8
    (value >>> 32).toInt8 (value >>> 24).toInt8 (value >>> 16).toInt8 (value >>> 8).toInt8
    value.toInt8
  rw [← longOf_longBytes_iff]
  constructor
  · rintro ⟨bs, hoctets, hvalue, -⟩
    rw [← octets_longBytes] at hoctets
    obtain rfl := octet_injective.list_map hoctets
    exact hreads.unique hvalue (by show 8 ≤ INT_MAX; decide)
  · intro hvalue
    rw [hvalue] at hreads
    exact ⟨longBytes value, octets_longBytes value, hreads, fun pre room h =>
      (writes_longBytes value).checked rfl (Nat.le_of_ble_eq_true rfl) h⟩

/-- A short, an int and a long make the round trip if and only if the signs of the bytes of the
long agree. -/
theorem fixedWidth_roundTrips_iff (short : Int16) (int : Int32) (long : Int64) :
    (RoundTrips writeShort readShort 2 short short.toInt ∧
      RoundTrips writeInt readInt 4 int int.toInt ∧
      RoundTrips writeLong readLong 8 long long.toInt) ↔ SignsAgree long := by
  constructor
  · rintro ⟨-, -, hlong⟩
    exact (roundTrips_long_iff long).mp hlong
  · intro hsigns
    exact ⟨roundTrips_short short, roundTrips_int int, (roundTrips_long_iff long).mpr hsigns⟩

/-- The number 32768 is written as `00 … 00 80 00` and read as -32768. -/
theorem not_roundTrips_long :
    exec readLong (inputAt [] (longBytes 32768 ++ []) 0) =
        (.ok (-32768), inputAt (longBytes 32768) [] 0) ∧
      ¬ RoundTrips writeLong readLong 8 32768 32768 := by
  have hexec : exec readLong (inputAt [] (longBytes 32768 ++ []) 0) =
      (.ok (-32768), inputAt (longBytes 32768) [] 0) := by decide
  refine ⟨hexec, ?_⟩
  rintro ⟨bs, hoctets, hvalue, -⟩
  have hbytes := octets_longBytes 32768
  rw [show (32768 : Int64).toInt = 32768 by decide] at hbytes
  rw [← hbytes] at hoctets
  obtain rfl := octet_injective.list_map hoctets
  have hread := hvalue [] [] 0 (by decide)
  simp only [List.nil_append] at hread hexec
  rw [hexec] at hread
  exact absurd hread (by decide)

end DxFeed.BufferedIO
